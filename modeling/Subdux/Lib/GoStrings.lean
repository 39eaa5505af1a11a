import Mathlib.Data.List.DropRight
/-!
# Go's `strings.TrimSpace`, `ToLower` and `ToUpper`

Go maps case rune by rune with Unicode's simple case mappings. The tables list
them as ranges `(lo, hi, step, delta)`: every `step`-th rune from `lo` to `hi`
moves by `delta`. Trimming and both maps are idempotent, and a trimmed string stays
trimmed in either case (`trimSpace_toUpper`, `trimSpace_toLower`).
-/

namespace GoStrings

/-! ## White space -/

/-- `unicode.IsSpace`. -/
def isSpace (c : Char) : Bool :=
  c.toNat ∈ [0x09, 0x0A, 0x0B, 0x0C, 0x0D, 0x20, 0x85, 0xA0, 0x1680, 0x2028, 0x2029, 0x202F, 0x205F,
    0x3000] ||
    (0x2000 ≤ c.toNat && c.toNat ≤ 0x200A)

/-- `strings.TrimSpace`. -/
def trimSpace (s : String) : String :=
  String.ofList ((s.toList.dropWhile isSpace).reverse.dropWhile isSpace).reverse

/-! ## Case -/

/-- The runes beyond ASCII whose lower case differs from them. -/
def lowerRanges : List (Nat × Nat × Nat × Int) :=
  [(192, 214, 1, 32), (216, 222, 1, 32), (256, 302, 2, 1), (304, 304, 1, -199), (306, 310, 2, 1),
   (313, 327, 2, 1), (330, 374, 2, 1), (376, 376, 1, -121), (377, 381, 2, 1), (385, 385, 1, 210),
     (386, 388, 2, 1),
   (390, 390, 1, 206), (391, 391, 1, 1), (393, 394, 1, 205), (395, 395, 1, 1), (398, 398, 1, 79),
     (399, 399, 1, 202),
   (400, 400, 1, 203), (401, 401, 1, 1), (403, 403, 1, 205), (404, 404, 1, 207), (406, 406, 1, 211),
   (407, 407, 1, 209), (408, 408, 1, 1), (412, 412, 1, 211), (413, 413, 1, 213), (415, 415, 1, 214),
   (416, 420, 2, 1), (422, 422, 1, 218), (423, 423, 1, 1), (425, 425, 1, 218), (428, 428, 1, 1),
     (430, 430, 1, 218),
   (431, 431, 1, 1), (433, 434, 1, 217), (435, 437, 2, 1), (439, 439, 1, 219), (440, 440, 1, 1),
     (444, 444, 1, 1),
   (452, 452, 1, 2), (453, 453, 1, 1), (455, 455, 1, 2), (456, 456, 1, 1), (458, 458, 1, 2),
     (459, 475, 2, 1),
   (478, 494, 2, 1), (497, 497, 1, 2), (498, 500, 2, 1), (502, 502, 1, -97), (503, 503, 1, -56),
     (504, 542, 2, 1),
   (544, 544, 1, -130), (546, 562, 2, 1), (570, 570, 1, 10795), (571, 571, 1, 1), (573, 573, 1, -163),
   (574, 574, 1, 10792), (577, 577, 1, 1), (579, 579, 1, -195), (580, 580, 1, 69), (581, 581, 1, 71),
   (582, 590, 2, 1), (880, 882, 2, 1), (886, 886, 1, 1), (895, 895, 1, 116), (902, 902, 1, 38),
     (904, 906, 1, 37),
   (908, 908, 1, 64), (910, 911, 1, 63), (913, 929, 1, 32), (931, 939, 1, 32), (975, 975, 1, 8),
     (984, 1006, 2, 1),
   (1012, 1012, 1, -60), (1015, 1015, 1, 1), (1017, 1017, 1, -7), (1018, 1018, 1, 1),
     (1021, 1023, 1, -130),
   (1024, 1039, 1, 80), (1040, 1071, 1, 32), (1120, 1152, 2, 1), (1162, 1214, 2, 1), (1216, 1216, 1, 15),
   (1217, 1229, 2, 1), (1232, 1326, 2, 1), (1329, 1366, 1, 48), (4256, 4293, 1, 7264),
     (4295, 4295, 1, 7264),
   (4301, 4301, 1, 7264), (5024, 5103, 1, 38864), (5104, 5109, 1, 8), (7312, 7354, 1, -3008),
     (7357, 7359, 1, -3008),
   (7680, 7828, 2, 1), (7838, 7838, 1, -7615), (7840, 7934, 2, 1), (7944, 7951, 1, -8),
     (7960, 7965, 1, -8),
   (7976, 7983, 1, -8), (7992, 7999, 1, -8), (8008, 8013, 1, -8), (8025, 8031, 2, -8),
     (8040, 8047, 1, -8),
   (8072, 8079, 1, -8), (8088, 8095, 1, -8), (8104, 8111, 1, -8), (8120, 8121, 1, -8),
     (8122, 8123, 1, -74),
   (8124, 8124, 1, -9), (8136, 8139, 1, -86), (8140, 8140, 1, -9), (8152, 8153, 1, -8),
     (8154, 8155, 1, -100),
   (8168, 8169, 1, -8), (8170, 8171, 1, -112), (8172, 8172, 1, -7), (8184, 8185, 1, -128),
     (8186, 8187, 1, -126),
   (8188, 8188, 1, -9), (8486, 8486, 1, -7517), (8490, 8490, 1, -8383), (8491, 8491, 1, -8262),
     (8498, 8498, 1, 28),
   (8544, 8559, 1, 16), (8579, 8579, 1, 1), (9398, 9423, 1, 26), (11264, 11311, 1, 48),
     (11360, 11360, 1, 1),
   (11362, 11362, 1, -10743), (11363, 11363, 1, -3814), (11364, 11364, 1, -10727), (11367, 11371, 2, 1),
   (11373, 11373, 1, -10780), (11374, 11374, 1, -10749), (11375, 11375, 1, -10783),
     (11376, 11376, 1, -10782),
   (11378, 11378, 1, 1), (11381, 11381, 1, 1), (11390, 11391, 1, -10815), (11392, 11490, 2, 1),
     (11499, 11501, 2, 1),
   (11506, 11506, 1, 1), (42560, 42604, 2, 1), (42624, 42650, 2, 1), (42786, 42798, 2, 1),
     (42802, 42862, 2, 1),
   (42873, 42875, 2, 1), (42877, 42877, 1, -35332), (42878, 42886, 2, 1), (42891, 42891, 1, 1),
   (42893, 42893, 1, -42280), (42896, 42898, 2, 1), (42902, 42920, 2, 1), (42922, 42922, 1, -42308),
   (42923, 42923, 1, -42319), (42924, 42924, 1, -42315), (42925, 42925, 1, -42305),
     (42926, 42926, 1, -42308),
   (42928, 42928, 1, -42258), (42929, 42929, 1, -42282), (42930, 42930, 1, -42261),
     (42931, 42931, 1, 928),
   (42932, 42946, 2, 1), (42948, 42948, 1, -48), (42949, 42949, 1, -42307), (42950, 42950, 1, -35384),
   (42951, 42953, 2, 1), (42960, 42960, 1, 1), (42966, 42968, 2, 1), (42997, 42997, 1, 1),
     (65313, 65338, 1, 32),
   (66560, 66599, 1, 40), (66736, 66771, 1, 40), (66928, 66938, 1, 39), (66940, 66954, 1, 39),
     (66956, 66962, 1, 39),
   (66964, 66965, 1, 39), (68736, 68786, 1, 64), (71840, 71871, 1, 32), (93760, 93791, 1, 32),
   (125184, 125217, 1, 34)]

/-- The runes beyond ASCII whose upper case differs from them. -/
def upperRanges : List (Nat × Nat × Nat × Int) :=
  [(181, 181, 1, 743), (224, 246, 1, -32), (248, 254, 1, -32), (255, 255, 1, 121),
   (257, 303, 2, -1), (305, 305, 1, -232), (307, 311, 2, -1), (314, 328, 2, -1), (331, 375, 2, -1),
   (378, 382, 2, -1), (383, 383, 1, -300), (384, 384, 1, 195), (387, 389, 2, -1), (392, 392, 1, -1),
   (396, 396, 1, -1), (402, 402, 1, -1), (405, 405, 1, 97), (409, 409, 1, -1), (410, 410, 1, 163),
   (414, 414, 1, 130), (417, 421, 2, -1), (424, 424, 1, -1), (429, 429, 1, -1), (432, 432, 1, -1),
     (436, 438, 2, -1),
   (441, 441, 1, -1), (445, 445, 1, -1), (447, 447, 1, 56), (453, 453, 1, -1), (454, 454, 1, -2),
     (456, 456, 1, -1),
   (457, 457, 1, -2), (459, 459, 1, -1), (460, 460, 1, -2), (462, 476, 2, -1), (477, 477, 1, -79),
     (479, 495, 2, -1),
   (498, 498, 1, -1), (499, 499, 1, -2), (501, 501, 1, -1), (505, 543, 2, -1), (547, 563, 2, -1),
     (572, 572, 1, -1),
   (575, 576, 1, 10815), (578, 578, 1, -1), (583, 591, 2, -1), (592, 592, 1, 10783),
     (593, 593, 1, 10780),
   (594, 594, 1, 10782), (595, 595, 1, -210), (596, 596, 1, -206), (598, 599, 1, -205),
     (601, 601, 1, -202),
   (603, 603, 1, -203), (604, 604, 1, 42319), (608, 608, 1, -205), (609, 609, 1, 42315),
     (611, 611, 1, -207),
   (613, 613, 1, 42280), (614, 614, 1, 42308), (616, 616, 1, -209), (617, 617, 1, -211),
     (618, 618, 1, 42308),
   (619, 619, 1, 10743), (620, 620, 1, 42305), (623, 623, 1, -211), (625, 625, 1, 10749),
     (626, 626, 1, -213),
   (629, 629, 1, -214), (637, 637, 1, 10727), (640, 640, 1, -218), (642, 642, 1, 42307),
     (643, 643, 1, -218),
   (647, 647, 1, 42282), (648, 648, 1, -218), (649, 649, 1, -69), (650, 651, 1, -217),
     (652, 652, 1, -71),
   (658, 658, 1, -219), (669, 669, 1, 42261), (670, 670, 1, 42258), (837, 837, 1, 84), (881, 883, 2, -1),
   (887, 887, 1, -1), (891, 893, 1, 130), (940, 940, 1, -38), (941, 943, 1, -37), (945, 961, 1, -32),
   (962, 962, 1, -31), (963, 971, 1, -32), (972, 972, 1, -64), (973, 974, 1, -63), (976, 976, 1, -62),
   (977, 977, 1, -57), (981, 981, 1, -47), (982, 982, 1, -54), (983, 983, 1, -8), (985, 1007, 2, -1),
   (1008, 1008, 1, -86), (1009, 1009, 1, -80), (1010, 1010, 1, 7), (1011, 1011, 1, -116),
     (1013, 1013, 1, -96),
   (1016, 1016, 1, -1), (1019, 1019, 1, -1), (1072, 1103, 1, -32), (1104, 1119, 1, -80),
     (1121, 1153, 2, -1),
   (1163, 1215, 2, -1), (1218, 1230, 2, -1), (1231, 1231, 1, -15), (1233, 1327, 2, -1),
     (1377, 1414, 1, -48),
   (4304, 4346, 1, 3008), (4349, 4351, 1, 3008), (5112, 5117, 1, -8), (7296, 7296, 1, -6254),
     (7297, 7297, 1, -6253),
   (7298, 7298, 1, -6244), (7299, 7300, 1, -6242), (7301, 7301, 1, -6243), (7302, 7302, 1, -6236),
   (7303, 7303, 1, -6181), (7304, 7304, 1, 35266), (7545, 7545, 1, 35332), (7549, 7549, 1, 3814),
   (7566, 7566, 1, 35384), (7681, 7829, 2, -1), (7835, 7835, 1, -59), (7841, 7935, 2, -1),
     (7936, 7943, 1, 8),
   (7952, 7957, 1, 8), (7968, 7975, 1, 8), (7984, 7991, 1, 8), (8000, 8005, 1, 8), (8017, 8023, 2, 8),
   (8032, 8039, 1, 8), (8048, 8049, 1, 74), (8050, 8053, 1, 86), (8054, 8055, 1, 100),
     (8056, 8057, 1, 128),
   (8058, 8059, 1, 112), (8060, 8061, 1, 126), (8064, 8071, 1, 8), (8080, 8087, 1, 8),
     (8096, 8103, 1, 8),
   (8112, 8113, 1, 8), (8115, 8115, 1, 9), (8126, 8126, 1, -7205), (8131, 8131, 1, 9),
     (8144, 8145, 1, 8),
   (8160, 8161, 1, 8), (8165, 8165, 1, 7), (8179, 8179, 1, 9), (8526, 8526, 1, -28),
     (8560, 8575, 1, -16),
   (8580, 8580, 1, -1), (9424, 9449, 1, -26), (11312, 11359, 1, -48), (11361, 11361, 1, -1),
   (11365, 11365, 1, -10795), (11366, 11366, 1, -10792), (11368, 11372, 2, -1), (11379, 11379, 1, -1),
   (11382, 11382, 1, -1), (11393, 11491, 2, -1), (11500, 11502, 2, -1), (11507, 11507, 1, -1),
   (11520, 11557, 1, -7264), (11559, 11559, 1, -7264), (11565, 11565, 1, -7264), (42561, 42605, 2, -1),
   (42625, 42651, 2, -1), (42787, 42799, 2, -1), (42803, 42863, 2, -1), (42874, 42876, 2, -1),
     (42879, 42887, 2, -1),
   (42892, 42892, 1, -1), (42897, 42899, 2, -1), (42900, 42900, 1, 48), (42903, 42921, 2, -1),
     (42933, 42947, 2, -1),
   (42952, 42954, 2, -1), (42961, 42961, 1, -1), (42967, 42969, 2, -1), (42998, 42998, 1, -1),
   (43859, 43859, 1, -928), (43888, 43967, 1, -38864), (65345, 65370, 1, -32), (66600, 66639, 1, -40),
   (66776, 66811, 1, -40), (66967, 66977, 1, -39), (66979, 66993, 1, -39), (66995, 67001, 1, -39),
   (67003, 67004, 1, -39), (68800, 68850, 1, -64), (71872, 71903, 1, -32), (93792, 93823, 1, -32),
   (125218, 125251, 1, -34)]

/-- A rune moved by the first range that lists it. -/
def mapRune (ranges : List (Nat × Nat × Nat × Int)) (c : Char) : Char :=
  match ranges.find? fun (lo, hi, step, _) => lo ≤ c.toNat && c.toNat ≤ hi &&
    (c.toNat - lo) % step = 0 with
  | some (_, _, _, delta) => Char.ofNat (c.toNat + delta).toNat
  | none => c

/-- `unicode.ToLower`, with its ASCII fast path. -/
def lowerRune (c : Char) : Char :=
  if c.toNat < 128 then (if 'A' ≤ c ∧ c ≤ 'Z' then Char.ofNat (c.toNat + 32) else c)
    else mapRune lowerRanges c

/-- `unicode.ToUpper`, with its ASCII fast path. -/
def upperRune (c : Char) : Char :=
  if c.toNat < 128 then (if 'a' ≤ c ∧ c ≤ 'z' then Char.ofNat (c.toNat - 32) else c)
    else mapRune upperRanges c

/-- `strings.ToLower`. -/
def toLower (s : String) : String := String.ofList (s.toList.map lowerRune)

/-- `strings.ToUpper`. -/
def toUpper (s : String) : String := String.ofList (s.toList.map upperRune)

/-! ## Mapped runes -/

section Mapped
variable {ranges : List (Nat × Nat × Nat × Int)} {codes : List Nat} {c : Char}

def spaceCodes : List Nat :=
  [0x09, 0x0A, 0x0B, 0x0C, 0x0D, 0x20, 0x85, 0xA0, 0x1680, 0x2000, 0x2001, 0x2002, 0x2003, 0x2004,
   0x2005, 0x2006, 0x2007, 0x2008, 0x2009, 0x200A, 0x2028, 0x2029, 0x202F, 0x205F, 0x3000]

theorem isSpace_iff : isSpace c = true ↔ c.toNat ∈ spaceCodes := by
  simp only [isSpace, spaceCodes, List.mem_cons, List.not_mem_nil, or_false, Bool.or_eq_true,
    Bool.and_eq_true,
    decide_eq_true_eq]
  omega

/-- No range moves a rune to one of `codes`, nor below zero. -/
def avoids (ranges : List (Nat × Nat × Nat × Int)) (codes : List Nat) : Bool :=
  ranges.all fun r => decide (0 ≤ r.1 + r.2.2.2) &&
    codes.all fun code => Nat.blt (r.2.1 + r.2.2.2).toNat code || Nat.blt code (r.1 + r.2.2.2).toNat

/-- No rune that the range moves comes to lie in `r`; `lo` and `hi` are where its ends are
moved to. -/
def misses (lo hi step : Nat) (r : Nat × Nat × Nat × Int) : Bool :=
  Nat.blt hi r.1 || Nat.blt r.2.1 lo ||
    ((Nat.beq step 2 || Nat.beq lo hi) && Nat.beq r.2.2.1 2 && Nat.beq ((lo + r.1) % 2) 1)

/-- Nothing is moved to a rune that is itself moved. -/
def apart (ranges : List (Nat × Nat × Nat × Int)) : Bool :=
  ranges.all fun r => decide (0 ≤ r.1 + r.2.2.2) &&
    ranges.all (misses (r.1 + r.2.2.2).toNat (r.2.1 + r.2.2.2).toNat r.2.2.1)

theorem misses_spec {lo hi step n : Nat} {r : Nat × Nat × Nat × Int}
    (h : misses lo hi step r = true) (hlo : lo ≤ n) (hhi : n ≤ hi) (hstep : (n - lo) % step = 0) :
    ¬ (r.1 ≤ n ∧ n ≤ r.2.1 ∧ (n - r.1) % r.2.2.1 = 0) := by
  simp only [misses, Bool.or_eq_true, Bool.and_eq_true, Nat.blt_eq, Nat.beq_eq] at h
  rintro ⟨hfirst, hlast, hparity⟩
  rcases h with (h | h) | ⟨⟨rfl | rfl, htwo⟩, hodd⟩
  · omega
  · omega
  · rw [htwo] at hparity
    omega
  · rw [htwo] at hparity
    omega

/-- A rune stays, or the first range that lists it moves it. -/
theorem mapRune_cases (ranges : List (Nat × Nat × Nat × Int)) (c : Char) :
    mapRune ranges c = c ∨ ∃ r ∈ ranges, r.1 ≤ c.toNat ∧ c.toNat ≤ r.2.1 ∧
    (c.toNat - r.1) % r.2.2.1 = 0 ∧
      mapRune ranges c = Char.ofNat (c.toNat + r.2.2.2).toNat := by
  unfold mapRune
  split
  · rename_i lo hi step delta hfind
    have hrange := List.find?_some hfind
    simp only [Bool.and_eq_true, decide_eq_true_eq] at hrange
    exact .inr ⟨_, List.mem_of_find?_eq_some hfind, hrange.1.1, hrange.1.2, hrange.2, rfl⟩
  · exact .inl rfl

theorem mapRune_of_none
    (h : ∀ r ∈ ranges, ¬ (r.1 ≤ c.toNat ∧ c.toNat ≤ r.2.1 ∧ (c.toNat - r.1) % r.2.2.1 = 0)) :
    mapRune ranges c = c := by
  rcases mapRune_cases ranges c with hc | ⟨r, hr, hlo, hhi, hstep, -⟩
  · exact hc
  · exact absurd ⟨hlo, hhi, hstep⟩ (h r hr)

theorem toNat_ofNat (n : Nat) : (Char.ofNat n).toNat = n ∨ Char.ofNat n = Char.ofNat 0 := by
  by_cases hvalid : n.isValidChar
  · left
    rw [Char.ofNat, dif_pos hvalid]
    rfl
  · right
    rw [Char.ofNat, dif_neg hvalid]
    decide

theorem mapRune_avoids (h : avoids ranges codes = true) (hzero : 0 ∉ codes) (hc : c.toNat ∉ codes) :
    (mapRune ranges c).toNat ∉ codes := by
  rcases mapRune_cases ranges c with hsame | ⟨r, hr, hlo, hhi, -, hmoved⟩
  · rwa [hsame]
  · rw [hmoved]
    have hall := List.all_eq_true.1 h r hr
    rw [Bool.and_eq_true, decide_eq_true_eq, List.all_eq_true] at hall
    intro hmem
    rcases toNat_ofNat (c.toNat + r.2.2.2).toNat with hcode | hcode
    · have := hall.2 _ hmem
      rw [hcode, Bool.or_eq_true, Nat.blt_eq, Nat.blt_eq] at this
      omega
    · rw [hcode] at hmem
      exact hzero hmem

theorem mapRune_idem (h : apart ranges = true)
    (hzero : mapRune ranges (Char.ofNat 0) = Char.ofNat 0) (c : Char) :
    mapRune ranges (mapRune ranges c) = mapRune ranges c := by
  rcases mapRune_cases ranges c with hsame | ⟨r, hr, hlo, hhi, hstep, hmoved⟩
  · rw [hsame, hsame]
  · rw [hmoved]
    rcases toNat_ofNat (c.toNat + r.2.2.2).toNat with hcode | hcode
    · have hall := List.all_eq_true.1 h r hr
      rw [Bool.and_eq_true, decide_eq_true_eq, List.all_eq_true] at hall
      apply mapRune_of_none
      intro other hother
      rw [hcode]
      refine misses_spec (hall.2 other hother) (by omega) (by omega) ?_
      rw [show (c.toNat + r.2.2.2).toNat - (r.1 + r.2.2.2).toNat = c.toNat - r.1 by omega]
      exact hstep
    · rw [hcode, hzero]

end Mapped

/-- `'A'` to `'Z'`. -/
def upperCodes : List Nat := List.range' 65 26

/-- `'a'` to `'z'`. -/
def lowerCodes : List Nat := List.range' 97 26

/-- Letters are no spaces and stay once they are moved. -/
theorem letters_checked :
    (∀ n ∈ lowerCodes, (Char.ofNat (n - 32)).toNat ∉ spaceCodes ∧
      upperRune (Char.ofNat (n - 32)) = Char.ofNat (n - 32)) ∧
      ∀ n ∈ upperCodes, (Char.ofNat (n + 32)).toNat ∉ spaceCodes ∧
        lowerRune (Char.ofNat (n + 32)) = Char.ofNat (n + 32) := by
  decide +kernel

theorem ranges_keep_zero :
    mapRune upperRanges (Char.ofNat 0) = Char.ofNat 0 ∧
    mapRune lowerRanges (Char.ofNat 0) = Char.ofNat 0 := by
  decide +kernel

/-- One run of the kernel over the two tables. -/
theorem ranges_checked :
    (avoids upperRanges spaceCodes && avoids upperRanges lowerCodes && apart upperRanges &&
      (avoids lowerRanges spaceCodes && avoids lowerRanges upperCodes && apart lowerRanges)) = true := by
  decide +kernel

theorem ranges_avoid_spaces :
    avoids upperRanges spaceCodes = true ∧ avoids lowerRanges spaceCodes = true := by
  have h := ranges_checked
  simp only [Bool.and_eq_true] at h
  exact ⟨h.1.1.1, h.2.1.1⟩

theorem ranges_avoid_letters :
    avoids upperRanges lowerCodes = true ∧ avoids lowerRanges upperCodes = true := by
  have h := ranges_checked
  simp only [Bool.and_eq_true] at h
  exact ⟨h.1.1.2, h.2.1.2⟩

theorem ranges_apart : apart upperRanges = true ∧ apart lowerRanges = true := by
  have h := ranges_checked
  simp only [Bool.and_eq_true] at h
  exact ⟨h.1.2, h.2.2⟩

theorem upperRune_cases (c : Char) :
    (c.toNat ∈ lowerCodes ∧ upperRune c = Char.ofNat (c.toNat - 32)) ∨
      (c.toNat ∉ lowerCodes ∧ upperRune c = if c.toNat < 128 then c else mapRune upperRanges c) := by
  have hletter : ('a' ≤ c ∧ c ≤ 'z') ↔ c.toNat ∈ lowerCodes := by
    rw [lowerCodes, List.mem_range'_1, Nat.lt_succ_iff]
    exact Iff.rfl
  by_cases hc : c.toNat ∈ lowerCodes
  · have hascii : c.toNat < 128 := by
      have := (List.mem_range'_1.1 hc).2
      omega
    exact .inl ⟨hc, by rw [upperRune, if_pos hascii, if_pos (hletter.2 hc)]⟩
  · exact .inr ⟨hc, by rw [upperRune, if_neg (mt hletter.1 hc)]⟩

theorem lowerRune_cases (c : Char) :
    (c.toNat ∈ upperCodes ∧ lowerRune c = Char.ofNat (c.toNat + 32)) ∨
      (c.toNat ∉ upperCodes ∧ lowerRune c = if c.toNat < 128 then c else mapRune lowerRanges c) := by
  have hletter : ('A' ≤ c ∧ c ≤ 'Z') ↔ c.toNat ∈ upperCodes := by
    rw [upperCodes, List.mem_range'_1, Nat.lt_succ_iff]
    exact Iff.rfl
  by_cases hc : c.toNat ∈ upperCodes
  · have hascii : c.toNat < 128 := by
      have := (List.mem_range'_1.1 hc).2
      omega
    exact .inl ⟨hc, by rw [lowerRune, if_pos hascii, if_pos (hletter.2 hc)]⟩
  · exact .inr ⟨hc, by rw [lowerRune, if_neg (mt hletter.1 hc)]⟩

/-- No rune becomes a space. -/
theorem isSpace_upperRune {c : Char} (h : isSpace c = false) : isSpace (upperRune c) = false := by
  rw [Bool.eq_false_iff, ne_eq, isSpace_iff] at h ⊢
  rcases upperRune_cases c with ⟨hc, hupper⟩ | ⟨hc, hupper⟩
  · rw [hupper]
    exact (letters_checked.1 _ hc).1
  · rw [hupper]
    split
    · exact h
    · exact mapRune_avoids ranges_avoid_spaces.1 (by decide) h

theorem isSpace_lowerRune {c : Char} (h : isSpace c = false) : isSpace (lowerRune c) = false := by
  rw [Bool.eq_false_iff, ne_eq, isSpace_iff] at h ⊢
  rcases lowerRune_cases c with ⟨hc, hlower⟩ | ⟨hc, hlower⟩
  · rw [hlower]
    exact (letters_checked.2 _ hc).1
  · rw [hlower]
    split
    · exact h
    · exact mapRune_avoids ranges_avoid_spaces.2 (by decide) h

/-- A rune that is moved stays where it is then. -/
theorem upperRune_idem (c : Char) : upperRune (upperRune c) = upperRune c := by
  rcases upperRune_cases c with ⟨hc, hupper⟩ | ⟨hc, hupper⟩
  · rw [hupper]
    exact (letters_checked.1 _ hc).2
  · rw [hupper]
    split
    · rename_i hascii
      rw [hupper, if_pos hascii]
    · rcases upperRune_cases (mapRune upperRanges c) with ⟨hletter, -⟩ | ⟨-, hagain⟩
      · exact absurd hletter (mapRune_avoids ranges_avoid_letters.1 (by decide) hc)
      · rw [hagain, mapRune_idem ranges_apart.1 ranges_keep_zero.1, ite_self]

theorem lowerRune_idem (c : Char) : lowerRune (lowerRune c) = lowerRune c := by
  rcases lowerRune_cases c with ⟨hc, hlower⟩ | ⟨hc, hlower⟩
  · rw [hlower]
    exact (letters_checked.2 _ hc).2
  · rw [hlower]
    split
    · rename_i hascii
      rw [hlower, if_pos hascii]
    · rcases lowerRune_cases (mapRune lowerRanges c) with ⟨hletter, -⟩ | ⟨-, hagain⟩
      · exact absurd hletter (mapRune_avoids ranges_avoid_letters.2 (by decide) hc)
      · rw [hagain, mapRune_idem ranges_apart.2 ranges_keep_zero.2, ite_self]

/-! ## Trimmed strings -/

section Trimmed
variable {s : String} {cs : List Char}

/-- No space at either end. -/
structure IsTrimmed (cs : List Char) : Prop where
  head : ∀ c ∈ cs.head?, isSpace c = false
  last : ∀ c ∈ cs.getLast?, isSpace c = false

theorem dropWhile_isSpace_eq (h : ∀ c ∈ cs.head?, isSpace c = false) : cs.dropWhile isSpace = cs := by
  cases cs with
  | nil => rfl
  | cons c cs =>
    have hc : isSpace c = false := h c rfl
    rw [List.dropWhile_cons_of_neg (by rw [hc]; decide)]

theorem toList_trimSpace (s : String) :
    (trimSpace s).toList = (s.toList.dropWhile isSpace).rdropWhile isSpace := by
  rw [trimSpace, String.toList_ofList]
  rfl

theorem isTrimmed_trimSpace (s : String) : IsTrimmed (trimSpace s).toList := by
  rw [toList_trimSpace]
  constructor
  · intro c hc
    -- The first character of a prefix of the rest after the leading spaces.
    obtain ⟨rest, hrest⟩ := List.rdropWhile_prefix isSpace (l := s.toList.dropWhile isSpace)
    have hhead := List.head?_dropWhile_not isSpace s.toList
    have hc' : (s.toList.dropWhile isSpace).head? = some c := by
      rw [← hrest, List.head?_append, hc]
      rfl
    rw [hc'] at hhead
    exact hhead
  · intro c hc
    obtain ⟨hne, rfl⟩ := List.mem_getLast?_eq_getLast hc
    simpa using List.rdropWhile_last_not isSpace _ hne

theorem IsTrimmed.trimSpace_eq (h : IsTrimmed s.toList) : trimSpace s = s := by
  have hlist : (trimSpace s).toList = s.toList := by
    rw [toList_trimSpace, dropWhile_isSpace_eq h.head, List.rdropWhile_eq_self_iff]
    intro hne
    simpa using h.last _ (List.getLast?_eq_some_getLast hne)
  exact String.toList_inj.1 hlist

theorem trimSpace_idem (s : String) : trimSpace (trimSpace s) = trimSpace s :=
  (isTrimmed_trimSpace s).trimSpace_eq

theorem IsTrimmed.map {f : Char → Char} (hf : ∀ c, isSpace c = false → isSpace (f c) = false)
    (h : IsTrimmed cs) :
    IsTrimmed (cs.map f) := by
  constructor
  · intro c hc
    rw [List.head?_map] at hc
    obtain ⟨d, hd, rfl⟩ := Option.map_eq_some_iff.1 hc
    exact hf d (h.head d hd)
  · intro c hc
    rw [List.getLast?_map] at hc
    obtain ⟨d, hd, rfl⟩ := Option.map_eq_some_iff.1 hc
    exact hf d (h.last d hd)

theorem trimSpace_toUpper (s : String) : trimSpace (toUpper (trimSpace s)) = toUpper (trimSpace s) := by
  apply IsTrimmed.trimSpace_eq
  rw [toUpper, String.toList_ofList]
  exact (isTrimmed_trimSpace s).map fun _ => isSpace_upperRune

theorem trimSpace_toLower (s : String) : trimSpace (toLower (trimSpace s)) = toLower (trimSpace s) := by
  apply IsTrimmed.trimSpace_eq
  rw [toLower, String.toList_ofList]
  exact (isTrimmed_trimSpace s).map fun _ => isSpace_lowerRune

theorem toUpper_eq_empty : toUpper s = "" ↔ s = "" := by
  rw [← String.toList_inj, toUpper, String.toList_ofList, String.toList_empty, List.map_eq_nil_iff,
    String.toList_eq_nil_iff]

theorem toUpper_idem (s : String) : toUpper (toUpper s) = toUpper s := by
  rw [toUpper, toUpper, String.toList_ofList, List.map_map]
  exact congrArg String.ofList (List.map_congr_left fun c _ => upperRune_idem c)

theorem toLower_idem (s : String) : toLower (toLower s) = toLower s := by
  rw [toLower, toLower, String.toList_ofList, List.map_map]
  exact congrArg String.ofList (List.map_congr_left fun c _ => lowerRune_idem c)

theorem mem_dropWhile {p : Char → Bool} {c : Char} (h : c ∈ cs) (hc : p c = false) :
    c ∈ cs.dropWhile p := by
  rw [← List.takeWhile_append_dropWhile (p := p) (l := cs)] at h
  rcases List.mem_append.1 h with h | h
  · rw [List.mem_takeWhile_imp h] at hc
    cases hc
  · exact h

/-- Only spaces are trimmed. -/
theorem mem_trimSpace {c : Char} (h : c ∈ s.toList) (hc : isSpace c = false) :
    c ∈ (trimSpace s).toList := by
  rw [trimSpace, String.toList_ofList, List.mem_reverse]
  exact mem_dropWhile (List.mem_reverse.2 (mem_dropWhile h hc)) hc

/-- What is trimmed is white space. -/
theorem exists_trimSpace (s : String) :
    ∃ left right, (∀ c ∈ left, isSpace c = true) ∧ (∀ c ∈ right, isSpace c = true) ∧
    s.toList = left ++ (trimSpace s).toList ++ right := by
  refine ⟨s.toList.takeWhile isSpace, ((s.toList.dropWhile isSpace).reverse.takeWhile isSpace).reverse,
    fun c hc => List.mem_takeWhile_imp hc, fun c hc =>
      List.mem_takeWhile_imp (List.mem_reverse.1 hc), ?_⟩
  rw [trimSpace, String.toList_ofList, List.append_assoc, ← List.reverse_append,
    List.takeWhile_append_dropWhile, List.reverse_reverse,
    List.takeWhile_append_dropWhile]

/-- White space around a trimmed text is trimmed. -/
theorem trimSpace_append {left right : List Char} (hleft : ∀ c ∈ left, isSpace c = true)
    (hright : ∀ c ∈ right, isSpace c = true) (h : IsTrimmed cs) (hne : cs ≠ []) :
    trimSpace (String.ofList (left ++ cs ++ right)) = String.ofList cs := by
  have hhead : ∀ rest, (cs ++ rest).dropWhile isSpace = cs ++ rest :=
    fun rest => dropWhile_isSpace_eq fun c hc =>
    h.head c (by rwa [List.head?_append_of_ne_nil _ hne] at hc)
  have hlast : cs.reverse.dropWhile isSpace = cs.reverse := dropWhile_isSpace_eq fun c hc =>
    h.last c (by rwa [List.head?_reverse] at hc)
  rw [trimSpace, String.toList_ofList, List.append_assoc, List.dropWhile_append_of_pos hleft, hhead,
    List.reverse_append,
    List.dropWhile_append_of_pos fun c hc => hright c (List.mem_reverse.1 hc), hlast,
      List.reverse_reverse]

/-- A map of the characters that keeps spaces apart from the others commutes with trimming. -/
theorem trimSpace_map {f : Char → Char} (hf : ∀ c, isSpace (f c) = isSpace c) (s : String) :
    trimSpace (String.ofList (s.toList.map f)) = String.ofList ((trimSpace s).toList.map f) := by
  have hcomp : isSpace ∘ f = isSpace := funext hf
  rw [trimSpace, trimSpace, String.toList_ofList, String.toList_ofList, List.dropWhile_map, hcomp,
    ← List.map_reverse,
    List.dropWhile_map, hcomp, ← List.map_reverse]

end Trimmed

end GoStrings
