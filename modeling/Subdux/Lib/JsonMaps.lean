import Subdux.Lib.JsonText
/-!
# JSON values as maps

What a decoder makes of a value that it is told no type of: of the fields of an object with
the same key the last one stays (`lastOfEach`), and a number is what a float makes of it.
`lastOfEach_insert` and `lastOfEach_shadowed` say what becomes of one field among others,
`byKey_obj_iff` when the text of a map shows the value of one key.
-/

namespace JsonText

section LastOfEach
variable {κ α : Type*} [DecidableEq κ] {k : κ} {fs before after : List (κ × α)}

/-- Of the fields with the same key, the last. -/
def lastOfEach : List (κ × α) → List (κ × α)
  | [] => []
  | f :: fs => if f.1 ∈ fs.map (·.1) then lastOfEach fs else f :: lastOfEach fs

theorem mem_keys_lastOfEach : k ∈ (lastOfEach fs).map (·.1) ↔ k ∈ fs.map (·.1) := by
  induction fs with
  | nil => rfl
  | cons f fs ih =>
    rw [lastOfEach]
    split
    · rename_i hmem
      rw [ih, List.map_cons, List.mem_cons]
      refine ⟨.inr, ?_⟩
      rintro (rfl | h)
      · exact hmem
      · exact h
    · rw [List.map_cons, List.map_cons, List.mem_cons, List.mem_cons, ih]

theorem nodup_keys_lastOfEach (fs : List (κ × α)) : ((lastOfEach fs).map (·.1)).Nodup := by
  induction fs with
  | nil => exact List.nodup_nil
  | cons f fs ih =>
    rw [lastOfEach]
    split
    · exact ih
    · rename_i hnew
      rw [List.map_cons, List.nodup_cons, mem_keys_lastOfEach]
      exact ⟨hnew, ih⟩

/-- A field whose key comes again leaves no trace. -/
theorem lastOfEach_shadowed (v : α) (h : k ∈ after.map (·.1)) :
    lastOfEach (before ++ (k, v) :: after) = lastOfEach (before ++ after) := by
  induction before with
  | nil => rw [List.nil_append, lastOfEach, if_pos h, List.nil_append]
  | cons f before ih =>
    have hkeys : f.1 ∈ (before ++ (k, v) :: after).map (·.1) ↔ f.1 ∈ (before ++ after).map (·.1) := by
      simp only [List.map_append, List.map_cons, List.mem_append, List.mem_cons]
      refine ⟨?_, ?_⟩
      · rintro (hf | rfl | hf)
        · exact .inl hf
        · exact .inr h
        · exact .inr hf
      · exact fun hf => hf.imp_right .inr
    rw [List.cons_append, List.cons_append, lastOfEach, lastOfEach, ih]
    simp only [hkeys]

/-- A field whose key does not come again stays, among fields that do not depend on its value. -/
theorem lastOfEach_insert (h : k ∉ after.map (·.1)) :
    ∃ a b, ∀ v : α, lastOfEach (before ++ (k, v) :: after) = a ++ (k, v) :: b := by
  induction before with
  | nil =>
    refine ⟨[], lastOfEach after, fun v => ?_⟩
    rw [List.nil_append, lastOfEach, if_neg h, List.nil_append]
  | cons f before ih =>
    obtain ⟨a, b, hab⟩ := ih
    have hkeys : ∀ v : α, (before ++ (k, v) :: after).map (·.1) = before.map (·.1) ++ k :: after.map
        (·.1) := fun v => by
      rw [List.map_append, List.map_cons]
    by_cases hmem : f.1 ∈ before.map (·.1) ++ k :: after.map (·.1)
    · refine ⟨a, b, fun v => ?_⟩
      rw [List.cons_append, lastOfEach, hkeys, if_pos hmem, hab]
    · refine ⟨f :: a, b, fun v => ?_⟩
      rw [List.cons_append, lastOfEach, hkeys, if_neg hmem, hab, List.cons_append]

/-- Writes a field, in place of what was there under its key. -/
def put (fs : List (κ × α)) (f : κ × α) : List (κ × α) := fs.filter (·.1 ≠ f.1) ++ [f]

/-- After several writes the last one of each key stands behind what no write met. -/
theorem foldl_put (fs ws : List (κ × α)) :
    ws.foldl put fs = (fs.filter fun f => f.1 ∉ ws.map (·.1)) ++ lastOfEach ws := by
  induction ws generalizing fs with
  | nil => simp [lastOfEach]
  | cons w ws ih =>
    have hfs : (fs.filter (·.1 ≠ w.1)).filter (fun f => f.1 ∉ ws.map (·.1)) = fs.filter fun f =>
        f.1 ∉ (w :: ws).map (·.1) := by
      rw [List.filter_filter]
      apply List.filter_congr
      intro f _
      by_cases hf : f.1 = w.1 <;> simp [hf]
    rw [List.foldl_cons, ih, put, List.filter_append, hfs, List.append_assoc, lastOfEach]
    congr 1
    split
    · rename_i hagain
      rw [List.filter_singleton, decide_eq_false (not_not.2 hagain)]
      rfl
    · rename_i honce
      rw [List.filter_singleton, decide_eq_true honce]
      rfl

/-- Other names for the keys make no difference where they tell the keys apart. -/
theorem lastOfEach_map {κ' β : Type*} [DecidableEq κ'] {g : κ → κ'} {h : α → β} {ws : List (κ × α)}
    (hinj : ∀ w ∈ ws, ∀ w' ∈ ws, g w.1 = g w'.1 → w.1 = w'.1) :
    lastOfEach (ws.map fun w => (g w.1, h w.2)) = (lastOfEach ws).map fun w => (g w.1, h w.2) := by
  induction ws with
  | nil => rfl
  | cons w ws ih =>
    have hmem : g w.1 ∈ (ws.map fun w => (g w.1, h w.2)).map (·.1) ↔ w.1 ∈ ws.map (·.1) := by
      simp only [List.mem_map, exists_exists_and_eq_and]
      constructor
      · rintro ⟨w', hw', heq⟩
        exact ⟨w', hw', hinj w' (List.mem_cons_of_mem _ hw') w List.mem_cons_self heq⟩
      · rintro ⟨w', hw', heq⟩
        exact ⟨w', hw', congrArg g heq⟩
    have hrest := ih fun a ha b hb => hinj a (List.mem_cons_of_mem _ ha) b (List.mem_cons_of_mem _ hb)
    rw [List.map_cons, lastOfEach, lastOfEach]
    by_cases hw : w.1 ∈ ws.map (·.1)
    · rw [if_pos hw, if_pos (hmem.2 hw), hrest]
    · rw [if_neg hw, if_neg fun h => hw (hmem.1 h), hrest, List.map_cons]

theorem lastOfEach_sublist (ws : List (κ × α)) : (lastOfEach ws).Sublist ws := by
  induction ws with
  | nil => exact List.Sublist.refl _
  | cons w ws ih =>
    rw [lastOfEach]
    split
    · exact ih.cons w
    · exact ih.cons_cons w

end LastOfEach

/-! ## Decoding without a type -/

section Decode
variable (float : Number → Option Number)

mutual

/-- The value of a text; `none` where a number fits no float. -/
def decodeAny : Json → Option Json
  | .null => some .null
  | .bool b => some (.bool b)
  | .num n => (float n).map .num
  | .str s => some (.str s)
  | .arr vs => (decodeItems vs).map .arr
  | .obj fs => (decodeFields fs).map fun fs => .obj (lastOfEach fs)

def decodeItems : List Json → Option (List Json)
  | [] => some []
  | v :: vs => do
    let v ← decodeAny v
    let vs ← decodeItems vs
    some (v :: vs)

def decodeFields : List (String × Json) → Option (List (String × Json))
  | [] => some []
  | (k, v) :: fs => do
    let v ← decodeAny v
    let fs ← decodeFields fs
    some ((k, v) :: fs)

end

variable {float} {fs gs before after : List (String × Json)} {k : String} {v : Json}

theorem decodeFields_cons (f : String × Json) (fs : List (String × Json)) :
    decodeFields float (f :: fs) = (decodeAny float f.2).bind fun v => (decodeFields float fs).map
    ((f.1, v) :: ·) := by
  obtain ⟨k, v⟩ := f
  rw [decodeFields]
  cases decodeAny float v with
  | none => rfl
  | some v => cases decodeFields float fs <;> rfl

theorem keys_decodeFields (h : decodeFields float fs = some gs) : gs.map (·.1) = fs.map (·.1) := by
  induction fs generalizing gs with
  | nil =>
    cases h
    rfl
  | cons f fs ih =>
    rw [decodeFields_cons] at h
    obtain ⟨v, -, h⟩ := Option.bind_eq_some_iff.1 h
    obtain ⟨rest, hrest, rfl⟩ := Option.map_eq_some_iff.1 h
    rw [List.map_cons, List.map_cons, ih hrest]

/-- The fields around one field are decoded apart from it. -/
theorem decodeFields_insert_iff : decodeFields float (before ++ (k, v) :: after) = some gs ↔
    ∃ b w a, decodeFields float before = some b ∧ decodeAny float v = some w ∧
    decodeFields float after = some a ∧
      gs = b ++ (k, w) :: a := by
  induction before generalizing gs with
  | nil =>
    rw [List.nil_append, decodeFields_cons]
    simp only [Option.bind_eq_some_iff, Option.map_eq_some_iff]
    constructor
    · rintro ⟨w, hw, a, ha, rfl⟩
      exact ⟨[], w, a, rfl, hw, ha, rfl⟩
    · rintro ⟨b, w, a, hb, hw, ha, rfl⟩
      cases hb
      exact ⟨w, hw, a, ha, rfl⟩
  | cons f before ih =>
    rw [List.cons_append, decodeFields_cons, decodeFields_cons]
    simp only [Option.bind_eq_some_iff, Option.map_eq_some_iff, ih]
    constructor
    · rintro ⟨x, hx, _, ⟨b, w, a, hb, hw, ha, rfl⟩, rfl⟩
      exact ⟨_, w, a, ⟨x, hx, b, hb, rfl⟩, hw, ha, rfl⟩
    · rintro ⟨_, w, a, ⟨x, hx, b, hb, rfl⟩, hw, ha, rfl⟩
      exact ⟨x, hx, _, ⟨b, w, a, hb, hw, ha, rfl⟩, rfl⟩

end Decode

/-! ## Reading and writing one key -/

section Get
variable {κ α : Type*} [DecidableEq κ] {k l : κ} {v : α} {fs gs : List (κ × α)}

/-- The value at a key. -/
def valueAt (k : κ) (fs : List (κ × α)) : Option α := (fs.find? (·.1 = k)).map (·.2)

/-- The map with `v` at `k`. -/
def setAt (k : κ) (v : α) (fs : List (κ × α)) : List (κ × α) :=
  if k ∈ fs.map (·.1) then fs.map fun f => if f.1 = k then (k, v) else f else fs ++ [(k, v)]

theorem valueAt_cons (f : κ × α) (fs : List (κ × α)) :
    valueAt k (f :: fs) = if f.1 = k then some f.2 else valueAt k fs := by
  unfold valueAt
  by_cases h : f.1 = k <;> simp [h]

theorem valueAt_eq_none_iff : valueAt k fs = none ↔ k ∉ fs.map (·.1) := by
  simp only [valueAt, Option.map_eq_none_iff, List.find?_eq_none, decide_eq_true_eq, List.mem_map,
    not_exists, not_and]

theorem valueAt_eq_some_iff (h : (fs.map (·.1)).Nodup) : valueAt k fs = some v ↔ (k, v) ∈ fs := by
  induction fs with
  | nil => simp [valueAt]
  | cons f fs ih =>
    rw [List.map_cons, List.nodup_cons] at h
    rw [valueAt_cons, List.mem_cons]
    split
    · rename_i hkey
      rw [Option.some.injEq]
      constructor
      · rintro rfl
        exact .inl (by rw [← hkey])
      · rintro (heq | hmem)
        · rw [← heq]
        · exact absurd (hkey ▸ List.mem_map_of_mem hmem) h.1
    · rename_i hkey
      rw [ih h.2]
      refine ⟨.inr, fun hmem => hmem.resolve_left ?_⟩
      rintro rfl
      exact hkey rfl

theorem keys_setAt_of_mem (h : k ∈ fs.map (·.1)) : (setAt k v fs).map (·.1) = fs.map (·.1) := by
  rw [setAt, if_pos h, List.map_map]
  refine List.map_congr_left fun f _ => ?_
  by_cases hkey : f.1 = k <;> simp [hkey]

theorem nodup_keys_setAt (h : (fs.map (·.1)).Nodup) : ((setAt k v fs).map (·.1)).Nodup := by
  by_cases hmem : k ∈ fs.map (·.1)
  · rwa [keys_setAt_of_mem hmem]
  · rw [setAt, if_neg hmem, List.map_append, List.nodup_append]
    refine ⟨h, List.nodup_singleton _, ?_⟩
    rintro a ha _ hb rfl
    rw [List.map_singleton, List.mem_singleton] at hb
    rw [hb] at ha
    exact hmem ha

theorem valueAt_replace_of_ne (h : l ≠ k) :
    valueAt l (fs.map fun f => if f.1 = k then (k, v) else f) = valueAt l fs := by
  induction fs with
  | nil => rfl
  | cons f fs ih =>
    rw [List.map_cons, valueAt_cons, valueAt_cons, ih]
    by_cases hf : f.1 = k
    · rw [if_pos hf, if_neg (Ne.symm h), if_neg]
      rintro rfl
      exact h hf
    · rw [if_neg hf]

theorem valueAt_replace_self (h : k ∈ fs.map (·.1)) :
    valueAt k (fs.map fun f => if f.1 = k then (k, v) else f) = some v := by
  induction fs with
  | nil => cases h
  | cons f fs ih =>
    rw [List.map_cons, valueAt_cons]
    by_cases hf : f.1 = k
    · rw [if_pos hf, if_pos rfl]
    · rw [if_neg hf, if_neg hf]
      exact ih ((List.mem_cons.1 h).resolve_left (Ne.symm hf))

theorem valueAt_append (fs gs : List (κ × α)) :
    valueAt k (fs ++ gs) = (valueAt k fs).or (valueAt k gs) := by
  induction fs with
  | nil => rfl
  | cons f fs ih =>
    rw [List.cons_append, valueAt_cons, valueAt_cons, ih]
    split <;> rfl

@[simp] theorem valueAt_setAt (k l : κ) (v : α) (fs : List (κ × α)) :
    valueAt l (setAt k v fs) = if l = k then some v else valueAt l fs := by
  unfold setAt
  by_cases hmem : k ∈ fs.map (·.1)
  · rw [if_pos hmem]
    split
    · rename_i hkey
      rw [hkey, valueAt_replace_self hmem]
    · rename_i hkey
      rw [valueAt_replace_of_ne hkey]
  · rw [if_neg hmem, valueAt_append, valueAt_cons]
    by_cases hkey : l = k
    · rw [if_pos hkey.symm, if_pos hkey, hkey, valueAt_eq_none_iff.2 hmem]
      rfl
    · rw [if_neg (Ne.symm hkey), if_neg hkey]
      exact Option.or_none

/-- Maps with the same values are listed alike, up to the order. -/
theorem perm_of_valueAt (hfs : (fs.map (·.1)).Nodup) (hgs : (gs.map (·.1)).Nodup)
    (h : ∀ k, valueAt k fs = valueAt k gs) : fs.Perm gs := by
  refine (List.perm_ext_iff_of_nodup (List.Nodup.of_map _ hfs) (List.Nodup.of_map _ hgs)).2 ?_
  rintro ⟨k, v⟩
  rw [← valueAt_eq_some_iff hfs, h, valueAt_eq_some_iff hgs]

end Get

/-! ## The text of a map -/

section ByKey
variable {a b : List (String × Json)} {k : String} {v w : Json}

/-- Maps that differ at one key have the same text exactly when the values there do. -/
theorem byKey_obj_iff (h : ((a ++ (k, v) :: b).map (·.1)).Nodup) :
    byKey (.obj (a ++ (k, v) :: b)) = byKey (.obj (a ++ (k, w) :: b)) ↔ byKey v = byKey w := by
  simp only [byKey, byKeyFields_eq_map, Json.obj.injEq, List.map_append, List.map_cons]
  refine ⟨fun hsorted => ?_, fun heq => by rw [heq]⟩
  have hmem : (k, byKey v) ∈ a.map (fun f => (f.1, byKey f.2)) ++ (k, byKey w) :: b.map fun f =>
      (f.1, byKey f.2) := by
    rw [← List.mem_insertionSort KeyLE, ← hsorted, List.mem_insertionSort]
    exact List.mem_append_right _ List.mem_cons_self
  -- no other field has the key
  rw [List.map_append, List.map_cons, List.nodup_append, List.nodup_cons] at h
  obtain ⟨-, ⟨hb, -⟩, hab⟩ := h
  rcases List.mem_append.1 hmem with hmem | hmem
  · obtain ⟨f, hf, heq⟩ := List.mem_map.1 hmem
    have hkey : f.1 = k := congrArg Prod.fst heq
    exact absurd hkey (hab f.1 (List.mem_map_of_mem hf) k List.mem_cons_self)
  · rcases List.mem_cons.1 hmem with hmem | hmem
    · exact congrArg Prod.snd hmem
    · obtain ⟨f, hf, heq⟩ := List.mem_map.1 hmem
      have hkey : f.1 = k := congrArg Prod.fst heq
      exact absurd (List.mem_map.2 ⟨f, hf, hkey⟩) hb

end ByKey

end JsonText
