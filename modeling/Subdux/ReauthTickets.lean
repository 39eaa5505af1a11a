import Mathlib.Data.List.Nodup
import Subdux.Time
import Subdux.Lib.Base64
import Subdux.Lib.Runs
/-!
# Reauthentication tickets

`mintTicket` and `Consume` of `internal/service/reauth.go` on the store they share, and
`generateSecureToken` of `oidc.go`. The store is listed in the order of minting; the code
walks it as a map, in any order, and `oldest_perm` says that this makes no difference.

In `ReauthSystem`, `minted` lists what was ever minted, `presented` the tickets that calls
of `Consume` have looked up, and `spent` the calls that succeeded.
-/

namespace Subdux
open GoStrings
open Runs (Path exec)

def reauthTicketTTL : Int := 5 * 60 * nsPerSecond
def maxReauthTickets : Nat := 1024
def reauthTicketBytes : Nat := 32

structure ReauthTicket where
  userID : Nat
  operation : String
  expiresAt : Time
  createdAt : Time
  deriving DecidableEq

inductive ReauthError where
  | reauthRequired
  | random
  deriving DecidableEq

/-- What `rand.Read` fills a ticket's buffer with. -/
abbrev TicketBytes := { bytes : List UInt8 // bytes.length = reauthTicketBytes }

def generateSecureToken (bytes : TicketBytes) : String := Base64.encode bytes.1

abbrev Tickets := List (String × ReauthTicket)

/-! ## The store -/

def cleanupLocked (now : Time) (tickets : Tickets) : Tickets :=
  tickets.filter fun entry => !now.after entry.2.expiresAt

/-- One step of the search for the oldest ticket. -/
def pickOldest (best : String × Time) (entry : String × ReauthTicket) : String × Time :=
  if best.1 = "" || entry.2.createdAt.before best.2 then (entry.1, entry.2.createdAt) else best

def oldest (tickets : Tickets) : String × Time := tickets.foldl pickOldest ("", Time.zero)

def deleteTicket (ticket : String) (tickets : Tickets) : Tickets := tickets.filter (·.1 ≠ ticket)

def deleteOldest (tickets : Tickets) : Tickets :=
  if (oldest tickets).1 = "" then tickets else deleteTicket (oldest tickets).1 tickets

def enforceLimitLocked (tickets : Tickets) : Tickets :=
  deleteOldest^[tickets.length + 1 - maxReauthTickets] tickets

/-- `bytes` is `none` when the random source fails; `cleanupNow` is the second reading of the
clock. -/
def mintTicket (tickets : Tickets) (bytes : Option TicketBytes) (userID : Nat) (operation : String)
    (now cleanupNow : Time) :
    Tickets × Except ReauthError String :=
  match bytes with
  | none => (tickets, .error .random)
  | some bytes =>
    let ticket := generateSecureToken bytes
    let kept := enforceLimitLocked (cleanupLocked cleanupNow tickets)
    (deleteTicket ticket kept ++ [(ticket, ⟨userID, operation, now.add reauthTicketTTL, now⟩)],
      .ok ticket)

/-- `now` is the second reading of the clock. -/
def consume (tickets : Tickets) (userID : Nat) (operation ticket : String) (cleanupNow now : Time) :
    Tickets × Except ReauthError Unit :=
  let ticket := trimSpace ticket
  if ticket = "" then (tickets, .error .reauthRequired)
  else
    let tickets := cleanupLocked cleanupNow tickets
    match tickets.find? (·.1 = ticket) with
    | none => (tickets, .error .reauthRequired)
    | some (_, entry) =>
      (deleteTicket ticket tickets,
        if entry.userID ≠ userID ∨ entry.operation ≠ operation then .error .reauthRequired
        else if now.after entry.expiresAt then .error .reauthRequired
        else .ok ())

/-! ## Runs -/

/-- A call of `Consume` that succeeded, at its second reading of the clock. -/
structure Spent where
  ticket : String
  userID : Nat
  operation : String
  now : Time
  deriving DecidableEq

structure ReauthSystem where
  tickets : Tickets
  clock : Time
  minted : Tickets
  presented : List String
  spent : List Spent

def ReauthSystem.initial (clock : Time) : ReauthSystem := ⟨[], clock, [], [], []⟩

inductive ReauthEvent where
  | mint (bytes : Option TicketBytes) (userID : Nat) (operation : String) (now cleanupNow : Time)
  | consume (userID : Nat) (operation ticket : String) (cleanupNow now : Time)

/-- The clock goes forward, and no token is minted twice. -/
def ReauthEvent.Fits (s : ReauthSystem) : ReauthEvent → Prop
  | .mint bytes _ _ now cleanupNow => s.clock.nanos < now.nanos ∧ now.nanos < cleanupNow.nanos ∧
      ∀ b ∈ bytes, generateSecureToken b ∉ s.minted.map (·.1)
  | .consume _ _ _ cleanupNow now => s.clock.nanos < cleanupNow.nanos ∧ cleanupNow.nanos < now.nanos

instance (s : ReauthSystem) (e : ReauthEvent) : Decidable (e.Fits s) := by
  cases e <;> unfold ReauthEvent.Fits <;> infer_instance

def ReauthSystem.step (s : ReauthSystem) : ReauthEvent → Option ReauthSystem
  | .mint bytes userID operation now cleanupNow =>
    let minted := mintTicket s.tickets bytes userID operation now cleanupNow
    some { s with
      tickets := minted.1
      clock := cleanupNow
      minted := s.minted ++ match minted.2 with
        | .ok ticket => [(ticket, ⟨userID, operation, now.add reauthTicketTTL, now⟩)]
        | .error _ => [] }
  | .consume userID operation ticket cleanupNow now =>
    let consumed := consume s.tickets userID operation ticket cleanupNow now
    some { s with
      tickets := consumed.1
      clock := now
      presented := s.presented ++ [trimSpace ticket]
      spent := s.spent ++ match consumed.2 with
        | .ok _ => [⟨trimSpace ticket, userID, operation, now⟩]
        | .error _ => [] }

/-! ## Eviction -/

section Eviction
variable {tickets : Tickets} {best : String × Time} {entry : String × ReauthTicket}

/-- A ticket found to be no older than `best` and than all of `tickets`. -/
theorem foldl_pickOldest (hnamed : ∀ e ∈ tickets, e.1 ≠ "") (hbest : best.1 ≠ "") :
    (tickets.foldl pickOldest best = best ∨ ∃ e ∈ tickets, tickets.foldl pickOldest best =
      (e.1, e.2.createdAt)) ∧
      (tickets.foldl pickOldest best).2.nanos ≤ best.2.nanos ∧
      ∀ e ∈ tickets, (tickets.foldl pickOldest best).2.nanos ≤ e.2.createdAt.nanos := by
  induction tickets generalizing best with
  | nil => exact ⟨.inl rfl, le_rfl, fun e he => absurd he List.not_mem_nil⟩
  | cons x tickets ih =>
    have hrest : ∀ e ∈ tickets, e.1 ≠ "" := fun e he => hnamed e (List.mem_cons_of_mem x he)
    rw [List.foldl_cons]
    by_cases hbefore : x.2.createdAt.nanos < best.2.nanos
    · have hpick : pickOldest best x = (x.1, x.2.createdAt) := by simp [pickOldest, Time.before, hbefore]
      rw [hpick]
      obtain ⟨hfrom, hle, hall⟩ := @ih (x.1, x.2.createdAt) hrest (hnamed x List.mem_cons_self)
      refine ⟨.inr ?_, hle.trans hbefore.le, ?_⟩
      · rcases hfrom with heq | ⟨e, he, heq⟩
        · exact ⟨x, List.mem_cons_self, heq⟩
        · exact ⟨e, List.mem_cons_of_mem x he, heq⟩
      · intro e he
        rcases List.mem_cons.1 he with rfl | he
        · exact hle
        · exact hall e he
    · have hpick : pickOldest best x = best := by simp [pickOldest, Time.before, hbefore, hbest]
      rw [hpick]
      obtain ⟨hfrom, hle, hall⟩ := ih hrest hbest
      refine ⟨?_, hle, ?_⟩
      · rcases hfrom with heq | ⟨e, he, heq⟩
        · exact .inl heq
        · exact .inr ⟨e, List.mem_cons_of_mem x he, heq⟩
      · intro e he
        rcases List.mem_cons.1 he with rfl | he
        · omega
        · exact hall e he

/-- The oldest ticket of a store that is not empty. -/
theorem oldest_spec (hnamed : ∀ e ∈ tickets, e.1 ≠ "") (hne : tickets ≠ []) :
    ∃ e ∈ tickets, oldest tickets = (e.1, e.2.createdAt) ∧ ∀ x ∈ tickets,
    e.2.createdAt.nanos ≤ x.2.createdAt.nanos := by
  cases tickets with
  | nil => exact absurd rfl hne
  | cons x tickets =>
    have hfirst : pickOldest ("", Time.zero) x = (x.1, x.2.createdAt) := by simp [pickOldest]
    have hnamed' : ∀ e ∈ tickets, e.1 ≠ "" := fun e he => hnamed e (List.mem_cons_of_mem x he)
    obtain ⟨hfrom, hle, hall⟩ :=
      @foldl_pickOldest tickets (x.1, x.2.createdAt) hnamed' (hnamed x List.mem_cons_self)
    rw [oldest, List.foldl_cons, hfirst]
    rcases hfrom with heq | ⟨e, he, heq⟩
    · refine ⟨x, List.mem_cons_self, heq, ?_⟩
      intro y hy
      rcases List.mem_cons.1 hy with rfl | hy
      · exact le_rfl
      · simpa [heq] using hall y hy
    · rw [heq] at hle hall
      refine ⟨e, List.mem_cons_of_mem x he, heq, ?_⟩
      intro y hy
      rcases List.mem_cons.1 hy with rfl | hy
      · exact hle
      · exact hall y hy

/-- The tickets of a store were minted at different times, under names. -/
structure Minted (tickets : Tickets) : Prop where
  named : ∀ e ∈ tickets, e.1 ≠ ""
  tokens : (tickets.map (·.1)).Nodup
  increasing : tickets.Pairwise fun a b => a.2.createdAt.nanos < b.2.createdAt.nanos

theorem Minted.sublist {kept : Tickets} (h : Minted tickets) (hsub : kept.Sublist tickets) :
    Minted kept where
  named := fun e he => h.named e (hsub.subset he)
  tokens := h.tokens.sublist (hsub.map _)
  increasing := h.increasing.sublist hsub

/-- In whatever order the map is walked, the same ticket is evicted. -/
theorem oldest_perm (h : Minted tickets) {walked : Tickets} (hperm : walked.Perm tickets) :
    oldest walked = oldest tickets := by
  by_cases hne : tickets = []
  · subst hne
    rw [hperm.eq_nil]
  · have hne' : walked ≠ [] := fun hnil => hne (by simpa [hnil] using hperm)
    obtain ⟨a, ha, hoa, hfirst⟩ := oldest_spec h.named hne
    obtain ⟨b, hb, hob, hfirst'⟩ := oldest_spec (fun e he => h.named e (hperm.mem_iff.1 he)) hne'
    have hmem : b ∈ tickets := hperm.mem_iff.1 hb
    have hle := hfirst b hmem
    have hle' := hfirst' a (hperm.mem_iff.2 ha)
    have hsame : a = b := by
      by_contra hdiff
      have hlt := List.Pairwise.forall_of_forall_of_flip (R := fun a b : String × ReauthTicket =>
        a = b ∨ a.2.createdAt.nanos ≠ b.2.createdAt.nanos) (fun x _ => .inl rfl)
        (h.increasing.imp fun hlt => .inr hlt.ne) (h.increasing.imp fun hlt => .inr hlt.ne') ha hmem
      rcases hlt with hsame | hne
      · exact hdiff hsame
      · exact hne (le_antisymm hle hle')
    rw [hoa, hob, hsame]

/-- Eviction removes the first ticket of the list. -/
theorem deleteOldest_cons (h : Minted (entry :: tickets)) :
    deleteOldest (entry :: tickets) = tickets := by
  obtain ⟨e, he, holdest, hfirst⟩ := oldest_spec h.named (List.cons_ne_nil entry tickets)
  have hlater := (List.pairwise_cons.1 h.increasing).1
  have hhead : e = entry := by
    rcases List.mem_cons.1 he with rfl | he
    · rfl
    · exact absurd (hfirst entry List.mem_cons_self) (not_le.2 (hlater e he))
  subst hhead
  rw [deleteOldest, holdest, if_neg (h.named e List.mem_cons_self), deleteTicket,
    List.filter_cons_of_neg (by simp)]
  rw [List.filter_eq_self]
  intro x hx
  have hfresh := (List.nodup_cons.1 h.tokens).1
  simp only [decide_not, Bool.not_eq_true', decide_eq_false_iff_not]
  exact fun hsame => hfresh (List.mem_map.2 ⟨x, hx, hsame⟩)

theorem deleteOldest_iterate (h : Minted tickets) (n : Nat) :
    deleteOldest^[n] tickets = tickets.drop n := by
  induction n generalizing tickets with
  | zero => rfl
  | succ n ih =>
    rw [Function.iterate_succ_apply]
    cases tickets with
    | nil =>
      have hnil : deleteOldest [] = [] := rfl
      rw [hnil, ih h, List.drop_nil, List.drop_nil]
    | cons entry tickets =>
      rw [deleteOldest_cons h, ih (h.sublist (List.sublist_cons_self entry tickets)),
        List.drop_succ_cons]

theorem enforceLimitLocked_eq (h : Minted tickets) :
    enforceLimitLocked tickets = tickets.drop (tickets.length + 1 - maxReauthTickets) :=
  deleteOldest_iterate h _

end Eviction

/-! ## What every state keeps -/

section Invariant
variable {s t : ReauthSystem} {userID : Nat} {operation ticket : String} {now cleanupNow : Time}
  {m : String × ReauthTicket}

/-- How many of the tickets were minted after `m`. -/
def mintedAfter (minted : Tickets) (m : String × ReauthTicket) : Nat :=
  minted.countP fun x => m.2.createdAt.before x.2.createdAt

theorem mintedAfter_snoc {minted : Tickets} {x : String × ReauthTicket}
    (h : m.2.createdAt.nanos < x.2.createdAt.nanos) :
    mintedAfter (minted ++ [x]) m = mintedAfter minted m + 1 := by
  have hbefore : m.2.createdAt.before x.2.createdAt = true := by simpa [Time.before] using h
  rw [mintedAfter, List.countP_append, List.countP_singleton, if_pos hbefore, mintedAfter]

structure TicketInv (s : ReauthSystem) : Prop where
  minted : Minted s.minted
  trimmed : ∀ m ∈ s.minted, trimSpace m.1 = m.1
  past : ∀ m ∈ s.minted, m.2.createdAt.nanos ≤ s.clock.nanos
  stored : s.tickets.Sublist s.minted
  bounded : s.tickets.length ≤ maxReauthTickets
  once : (s.spent.map (·.ticket)).Nodup
  gone : ∀ x ∈ s.spent, ∀ m ∈ s.tickets, m.1 ≠ x.ticket
  matched : ∀ x ∈ s.spent, ∃ m ∈ s.minted,
    m.1 = x.ticket ∧ m.2.userID = x.userID ∧ m.2.operation = x.operation ∧ ¬ x.now.after m.2.expiresAt
  /-- No early loss. -/
  kept : ∀ m ∈ s.minted, m.1 ∉ s.presented → ¬ s.clock.after m.2.expiresAt →
    m ∈ s.tickets ∨ maxReauthTickets ≤ mintedAfter s.minted m

theorem TicketInv.initial (clock : Time) : TicketInv (.initial clock) where
  minted := ⟨fun _ h => absurd h List.not_mem_nil, List.nodup_nil, List.Pairwise.nil⟩
  trimmed := fun _ h => absurd h List.not_mem_nil
  past := fun _ h => absurd h List.not_mem_nil
  stored := List.Sublist.refl []
  bounded := Nat.zero_le _
  once := List.nodup_nil
  gone := fun _ h => absurd h List.not_mem_nil
  matched := fun _ h => absurd h List.not_mem_nil
  kept := fun _ h => absurd h List.not_mem_nil

/-- A ticket that has not expired at a later reading is not cleaned up. -/
theorem mem_cleanupLocked (hle : cleanupNow.nanos ≤ now.nanos) (hm : m ∈ s.tickets)
    (hfresh : ¬ now.after m.2.expiresAt) :
    m ∈ cleanupLocked cleanupNow s.tickets := by
  refine List.mem_filter.2 ⟨hm, ?_⟩
  simp only [Time.after, decide_eq_true_eq, Bool.not_eq_true', decide_eq_false_iff_not] at hfresh ⊢
  omega

theorem TicketInv.cleaned (h : TicketInv s) (now : Time) :
    (cleanupLocked now s.tickets).Sublist s.minted ∧
    (cleanupLocked now s.tickets).length ≤ maxReauthTickets :=
  ⟨List.filter_sublist.trans h.stored, (List.length_filter_le _ _).trans h.bounded⟩

/-- What is still in a full store after its oldest ticket is evicted was minted after it. -/
theorem mem_drop_or_full {tickets : Tickets} (h : Minted s.minted) (hsub : tickets.Sublist s.minted)
    (hlen : tickets.length ≤ maxReauthTickets) (hm : m ∈ tickets) :
    m ∈ tickets.drop (tickets.length + 1 - maxReauthTickets) ∨
    maxReauthTickets ≤ mintedAfter s.minted m + 1 := by
  cases tickets with
  | nil => cases hm
  | cons oldest rest =>
    by_cases hfull : (oldest :: rest).length = maxReauthTickets
    · rw [hfull, Nat.add_sub_cancel_left, List.drop_one, List.tail_cons]
      rcases List.mem_cons.1 hm with rfl | hm
      · right
        have hlater := (List.pairwise_cons.1 (h.sublist hsub).increasing).1
        have hall : rest.countP (fun x => m.2.createdAt.before x.2.createdAt) = rest.length := by
          rw [List.countP_eq_length]
          intro x hx
          simpa [Time.before] using hlater x hx
        have hle : rest.countP (fun x => m.2.createdAt.before x.2.createdAt) ≤ mintedAfter s.minted m :=
          ((List.sublist_cons_self m rest).trans hsub).countP_le
        rw [List.length_cons] at hfull
        omega
      · exact .inl hm
    · left
      have hsmall : (oldest :: rest).length + 1 - maxReauthTickets = 0 := by omega
      rw [hsmall, List.drop_zero]
      exact hm

/-- The store after a ticket was minted. -/
theorem TicketInv.mintTicket_eq (h : TicketInv s) (bytes : TicketBytes)
    (hfresh : generateSecureToken bytes ∉ s.minted.map (·.1)) :
    mintTicket s.tickets (some bytes) userID operation now cleanupNow =
      ((cleanupLocked cleanupNow s.tickets).drop
        ((cleanupLocked cleanupNow s.tickets).length + 1 - maxReauthTickets) ++
        [(generateSecureToken bytes, ⟨userID, operation, now.add reauthTicketTTL, now⟩)],
          .ok (generateSecureToken bytes)) := by
  have hsub := (h.cleaned cleanupNow).1
  rw [mintTicket]
  rw [enforceLimitLocked_eq (h.minted.sublist hsub), deleteTicket, List.filter_eq_self.2]
  intro x hx
  have hmem : x ∈ s.minted := ((List.drop_sublist _ _).trans hsub).subset hx
  simp only [decide_not, Bool.not_eq_true', decide_eq_false_iff_not]
  exact fun hsame => hfresh (List.mem_map.2 ⟨x, hmem, hsame⟩)

theorem generateSecureToken_spec (bytes : TicketBytes) :
    generateSecureToken bytes ≠ "" ∧
    trimSpace (generateSecureToken bytes) = generateSecureToken bytes := by
  refine ⟨Base64.encode_ne_empty ?_, Base64.trimSpace_encode bytes.1⟩
  intro hnil
  have hlen := bytes.2
  rw [hnil] at hlen
  cases hlen

theorem TicketInv.mint (h : TicketInv s) (bytes : TicketBytes)
    (hfresh : generateSecureToken bytes ∉ s.minted.map (·.1)) (hnow : s.clock.nanos < now.nanos)
    (hcleanup : now.nanos < cleanupNow.nanos) :
    TicketInv { s with
      tickets := (mintTicket s.tickets (some bytes) userID operation now cleanupNow).1
      clock := cleanupNow
      minted := s.minted ++
        [(generateSecureToken bytes, ⟨userID, operation, now.add reauthTicketTTL, now⟩)] } := by
  rw [h.mintTicket_eq bytes hfresh]
  obtain ⟨hsub, hlen⟩ := h.cleaned cleanupNow
  generalize hkept : cleanupLocked cleanupNow s.tickets = kept at hsub hlen
  have hdrop := (List.drop_sublist (kept.length + 1 - maxReauthTickets) kept).trans hsub
  obtain ⟨hnamed, htrimmed⟩ := generateSecureToken_spec bytes
  constructor
  case minted =>
    refine ⟨?_, ?_, ?_⟩
    · intro e he
      rcases List.mem_append.1 he with he | he
      · exact h.minted.named e he
      · rw [List.mem_singleton.1 he]
        exact hnamed
    · rw [List.map_append, List.map_singleton, List.nodup_append]
      refine ⟨h.minted.tokens, List.nodup_singleton _, ?_⟩
      rintro x hx _ hnew rfl
      rw [List.mem_singleton] at hnew
      rw [hnew] at hx
      exact hfresh hx
    · refine List.pairwise_append.2 ⟨h.minted.increasing, List.pairwise_singleton _ _, ?_⟩
      intro m hm x hx
      have hle := h.past m hm
      rw [List.mem_singleton.1 hx]
      dsimp only
      omega
  case trimmed =>
    intro e he
    rcases List.mem_append.1 he with he | he
    · exact h.trimmed e he
    · rw [List.mem_singleton.1 he]
      exact htrimmed
  case past =>
    intro e he
    rcases List.mem_append.1 he with he | he
    · have hle := h.past e he
      dsimp only
      omega
    · rw [List.mem_singleton.1 he]
      exact hcleanup.le
  case stored => exact hdrop.append_right _
  case bounded =>
    rw [List.length_append, List.length_drop, List.length_singleton]
    have hmax : 0 < maxReauthTickets := by decide
    omega
  case once => exact h.once
  case gone =>
    intro x hx e he
    rcases List.mem_append.1 he with he | he
    · have hmem : e ∈ cleanupLocked cleanupNow s.tickets := hkept ▸ (List.drop_sublist _ _).subset he
      exact h.gone x hx e (List.mem_filter.1 hmem).1
    · -- a spent token is a minted one, the new one is not
      rw [List.mem_singleton.1 he]
      intro hsame
      obtain ⟨m, hm, hticket, -⟩ := h.matched x hx
      exact hfresh (List.mem_map.2 ⟨m, hm, hticket.trans hsame.symm⟩)
  case matched =>
    intro x hx
    obtain ⟨m, hm, hmatch⟩ := h.matched x hx
    exact ⟨m, List.mem_append_left _ hm, hmatch⟩
  case kept =>
    intro m hm hnever hfresh'
    rcases List.mem_append.1 hm with hm | hm
    · have hcount : mintedAfter
          (s.minted ++ [(generateSecureToken bytes,
            ⟨userID, operation, now.add reauthTicketTTL, now⟩)]) m =
          mintedAfter s.minted m + 1 := mintedAfter_snoc (lt_of_le_of_lt (h.past m hm) hnow)
      have hearlier : ¬ s.clock.after m.2.expiresAt := by
        simp only [Time.after, decide_eq_true_eq] at hfresh' ⊢
        omega
      rcases h.kept m hm hnever hearlier with hmem | hfull
      · have hmem := mem_cleanupLocked le_rfl hmem hfresh'
        rw [hkept] at hmem
        rcases mem_drop_or_full h.minted hsub hlen hmem with hmem | hfull
        · exact .inl (List.mem_append_left _ hmem)
        · right
          rw [hcount]
          exact hfull
      · right
        rw [hcount]
        exact Nat.le_succ_of_le hfull
    · rw [List.mem_singleton.1 hm]
      exact .inl (List.mem_append_right _ (List.mem_singleton_self _))

/-- What a call of `Consume` finds, and what it leaves. -/
theorem consume_cases (tickets : Tickets) (userID : Nat) (operation ticket : String)
    (cleanupNow now : Time) :
    (consume tickets userID operation ticket cleanupNow now = (tickets, .error .reauthRequired) ∧
      trimSpace ticket = "") ∨
      (consume tickets userID operation ticket cleanupNow now =
      (cleanupLocked cleanupNow tickets, .error .reauthRequired) ∧
      ∀ m ∈ cleanupLocked cleanupNow tickets, m.1 ≠ trimSpace ticket) ∨
    ∃ m ∈ cleanupLocked cleanupNow tickets, m.1 = trimSpace ticket ∧
      consume tickets userID operation ticket cleanupNow now =
        (deleteTicket (trimSpace ticket) (cleanupLocked cleanupNow tickets),
          if m.2.userID = userID ∧ m.2.operation = operation ∧ ¬ now.after m.2.expiresAt then .ok ()
          else .error .reauthRequired) := by
  by_cases hblank : trimSpace ticket = ""
  · exact .inl ⟨by simp [consume, hblank], hblank⟩
  right
  cases hfind : (cleanupLocked cleanupNow tickets).find? (·.1 = trimSpace ticket) with
  | none =>
    left
    refine ⟨by simp [consume, hblank, hfind], ?_⟩
    intro m hm
    simpa using List.find?_eq_none.1 hfind m hm
  | some m =>
    right
    have hticket : m.1 = trimSpace ticket := by simpa using List.find?_some hfind
    refine ⟨m, List.mem_of_find?_eq_some hfind, hticket, ?_⟩
    simp only [consume, hblank, if_false, hfind, Prod.mk.injEq, true_and]
    by_cases huser : m.2.userID = userID <;> by_cases hoperation : m.2.operation = operation <;>
      by_cases hafter : now.after m.2.expiresAt <;>
      simp [huser, hoperation, hafter]

/-- What a call of `Consume` does to the store. -/
structure ConsumeSpec (tickets : Tickets) (ticket : String) (cleanupNow : Time) (kept : Tickets) :
    Prop where
  sublist : kept.Sublist tickets
  others : ∀ m ∈ cleanupLocked cleanupNow tickets, m.1 ≠ trimSpace ticket → m ∈ kept

theorem consume_spec (tickets : Tickets) (userID : Nat) (operation ticket : String)
    (cleanupNow now : Time) :
    ConsumeSpec tickets ticket cleanupNow
    (consume tickets userID operation ticket cleanupNow now).1 := by
  have hclean : (cleanupLocked cleanupNow tickets).Sublist tickets := List.filter_sublist
  rcases consume_cases tickets userID operation ticket cleanupNow now with ⟨h, -⟩ | ⟨h, -⟩ |
    ⟨m, hm, hticket, h⟩
  · rw [h]
    exact ⟨List.Sublist.refl _, fun m hm _ => hclean.subset hm⟩
  · rw [h]
    exact ⟨hclean, fun m hm _ => hm⟩
  · rw [h]
    refine ⟨List.filter_sublist.trans hclean, fun x hx hne => List.mem_filter.2 ⟨hx, ?_⟩⟩
    simpa using hne

/-- The ticket of a call that succeeds was in the store, and no longer is. -/
theorem consume_ok (h : (consume s.tickets userID operation ticket cleanupNow now).2 = .ok ()) :
    (∃ m ∈ s.tickets, m.1 = trimSpace ticket ∧ m.2.userID = userID ∧ m.2.operation = operation ∧
      ¬ now.after m.2.expiresAt) ∧
      ∀ m ∈ (consume s.tickets userID operation ticket cleanupNow now).1, m.1 ≠ trimSpace ticket := by
  rcases consume_cases s.tickets userID operation ticket cleanupNow now with ⟨heq, -⟩ | ⟨heq, -⟩ |
    ⟨m, hm, hticket, heq⟩
  · rw [heq] at h
    cases h
  · rw [heq] at h
    cases h
  · rw [heq] at h ⊢
    by_cases hmatch : m.2.userID = userID ∧ m.2.operation = operation ∧ ¬ now.after m.2.expiresAt
    · refine ⟨⟨m, List.filter_sublist.subset hm, hticket, hmatch⟩, ?_⟩
      intro x hx
      simpa using (List.mem_filter.1 hx).2
    · rw [if_neg hmatch] at h
      cases h

/-- The spent tickets after a call, which adds one to them where it succeeds. -/
theorem TicketInv.consume (h : TicketInv s) (hcleanup : s.clock.nanos < cleanupNow.nanos)
    (hnow : cleanupNow.nanos < now.nanos)
    (hstep : s.step (.consume userID operation ticket cleanupNow now) = some t) : TicketInv t := by
  have hspec := consume_spec s.tickets userID operation ticket cleanupNow now
  have hok := @consume_ok s userID operation ticket now cleanupNow
  rw [ReauthSystem.step] at hstep
  obtain rfl := Option.some.inj hstep
  rcases hconsume : Subdux.consume s.tickets userID operation ticket cleanupNow now with
    ⟨kept, result⟩
  rw [hconsume] at hspec hok
  dsimp only at hspec hok ⊢
  have hpast : ∀ m ∈ s.minted, m.2.createdAt.nanos ≤ now.nanos := fun m hm => by
    have hle := h.past m hm
    omega
  have hstored := hspec.sublist.trans h.stored
  have hkept : ∀ m ∈ s.minted, m.1 ∉ s.presented ++ [trimSpace ticket] → ¬ now.after m.2.expiresAt →
      m ∈ kept ∨ maxReauthTickets ≤ mintedAfter s.minted m := by
    intro m hm hnever hfresh
    rw [List.mem_append, List.mem_singleton, not_or] at hnever
    have hearlier : ¬ s.clock.after m.2.expiresAt := by
      simp only [Time.after, decide_eq_true_eq] at hfresh ⊢
      omega
    rcases h.kept m hm hnever.1 hearlier with hmem | hfull
    · exact .inl (hspec.others m (mem_cleanupLocked hnow.le hmem hfresh) hnever.2)
    · exact .inr hfull
  have hbounded := hspec.sublist.length_le.trans h.bounded
  cases result with
  | error err =>
    rw [List.append_nil]
    exact ⟨h.minted, h.trimmed, hpast, hstored, hbounded, h.once, fun x hx m hm =>
      h.gone x hx m (hspec.sublist.subset hm),
      h.matched, hkept⟩
  | ok u =>
    obtain ⟨⟨m, hm, hticket, hmatch⟩, hgone⟩ := hok rfl
    refine ⟨h.minted, h.trimmed, hpast, hstored, hbounded, ?_, ?_, ?_, hkept⟩
    · rw [List.map_append, List.map_singleton, List.nodup_append]
      refine ⟨h.once, List.nodup_singleton _, ?_⟩
      rintro token htoken _ hnew rfl
      obtain ⟨x, hx, rfl⟩ := List.mem_map.1 htoken
      rw [List.mem_singleton] at hnew
      exact h.gone x hx m hm (hticket.trans hnew.symm)
    · intro x hx y hy
      rcases List.mem_append.1 hx with hx | hx
      · exact h.gone x hx y (hspec.sublist.subset hy)
      · rw [List.mem_singleton.1 hx]
        exact hgone y hy
    · intro x hx
      rcases List.mem_append.1 hx with hx | hx
      · exact h.matched x hx
      · rw [List.mem_singleton.1 hx]
        exact ⟨m, h.stored.subset hm, hticket, hmatch⟩

theorem TicketInv.step (e : ReauthEvent) (h : TicketInv s) (hfits : e.Fits s)
    (hstep : s.step e = some t) : TicketInv t := by
  cases e with
  | mint bytes userID operation now cleanupNow =>
    obtain ⟨hnow, hcleanup, hfresh⟩ := hfits
    rw [ReauthSystem.step] at hstep
    obtain rfl := Option.some.inj hstep
    cases bytes with
    | none =>
      rw [mintTicket, List.append_nil]
      refine ⟨h.minted, h.trimmed, ?_, h.stored, h.bounded, h.once, h.gone, h.matched, ?_⟩
      · intro m hm
        have hle := h.past m hm
        dsimp only
        omega
      · intro m hm hnever hfresh
        refine h.kept m hm hnever ?_
        simp only [Time.after, decide_eq_true_eq] at hfresh ⊢
        omega
    | some bytes =>
      have hkeep :=
        @TicketInv.mint s userID operation now cleanupNow h bytes (hfresh bytes rfl) hnow hcleanup
      rw [h.mintTicket_eq bytes (hfresh bytes rfl)] at hkeep ⊢
      exact hkeep
  | consume userID operation ticket cleanupNow now => exact h.consume hfits.1 hfits.2 hstep

/-- Over every run: a ticket is spent once at most, by the user and for the operation it was
minted for and before it expires; the store is bounded; and a ticket that fits and was never
presented is refused only where `maxReauthTickets` tickets were minted after it. -/
theorem reauth_tickets (clock : Time) (s : ReauthSystem)
    (h : Path ReauthSystem.step (fun s e => e.Fits s) (.initial clock) s) :
    (s.spent.map (·.ticket)).Nodup ∧ (∀ x ∈ s.spent, ∃ m ∈ s.minted,
      m.1 = x.ticket ∧ m.2.userID = x.userID ∧ m.2.operation = x.operation ∧
        ¬ x.now.after m.2.expiresAt) ∧
    s.tickets.length ≤ maxReauthTickets ∧
    ∀ m ∈ s.minted, ∀ ticket cleanupNow now, trimSpace ticket = m.1 → m.1 ∉ s.presented →
      (ReauthEvent.consume m.2.userID m.2.operation ticket cleanupNow now).Fits s →
        ¬ now.after m.2.expiresAt →
      (consume s.tickets m.2.userID m.2.operation ticket cleanupNow now).2 ≠ .ok () →
      maxReauthTickets ≤ mintedAfter s.minted m := by
  have hinv : TicketInv s :=
    h.invariant TicketInv (fun _ e _ hinv hfits hstep => hinv.step e hfits hstep) (.initial clock)
  refine ⟨hinv.once, hinv.matched, hinv.bounded, ?_⟩
  intro m hm ticket cleanupNow now hticket hnever hfits hfresh hfails
  obtain ⟨hcleanup, hnow⟩ := hfits
  have hearlier : ¬ s.clock.after m.2.expiresAt := by
    simp only [Time.after, decide_eq_true_eq] at hfresh ⊢
    omega
  rcases hinv.kept m hm hnever hearlier with hmem | hfull
  · exfalso
    have hclean := mem_cleanupLocked hnow.le hmem hfresh
    rcases consume_cases s.tickets m.2.userID m.2.operation ticket cleanupNow now with ⟨-, hblank⟩ |
      ⟨-, hnone⟩ | ⟨x, hx, hsame, heq⟩
    · exact hinv.minted.named m hm (hticket.symm.trans hblank)
    · exact hnone m hclean hticket.symm
    · -- the entry found is `m`
      have hmem' : x ∈ s.minted := hinv.stored.subset (List.filter_sublist.subset hx)
      obtain rfl := List.inj_on_of_nodup_map hinv.minted.tokens hmem' hm (hsame.trans hticket)
      rw [heq, if_pos ⟨rfl, rfl, hfresh⟩] at hfails
      exact hfails rfl
  · exact hfull

/-- Two tickets are minted; the first is presented for the wrong operation, the second is spent
and presented again. -/
def sampleReauthEvents : List ReauthEvent :=
  let first : TicketBytes := ⟨List.replicate 32 0, by decide⟩
  let second : TicketBytes := ⟨List.replicate 32 255, by decide⟩
  [.mint (some first) 1 "backup" ⟨1, 0⟩ ⟨2, 0⟩, .mint (some second) 1 "restore" ⟨3, 0⟩ ⟨4, 0⟩,
   .consume 1 "restore" (generateSecureToken first) ⟨5, 0⟩ ⟨6, 0⟩,
   .consume 1 "restore" (" " ++ generateSecureToken second) ⟨7, 0⟩ ⟨8, 0⟩,
   .consume 1 "restore" (generateSecureToken second) ⟨9, 0⟩ ⟨10, 0⟩]

theorem reauth_tickets_sample :
    ∃ s : ReauthSystem, s.minted.length = 2 ∧ s.presented.length = 3 ∧ s.spent.length = 1 ∧
    (s.spent.map (·.ticket)).Nodup ∧
      s.tickets.length ≤ maxReauthTickets := by
  have hrun : (exec ReauthSystem.step (fun s e => e.Fits s) (.initial ⟨0, 0⟩) sampleReauthEvents).any
      (fun s => s.minted.length = 2 ∧ s.presented.length = 3 ∧ s.spent.length = 1) = true := by
    decide +kernel
  obtain ⟨s, hs, hlengths⟩ := (Option.any_eq_true _ _).1 hrun
  obtain ⟨hminted, hpresented, hspent⟩ := of_decide_eq_true hlengths
  obtain ⟨honce, -, hbounded, -⟩ := reauth_tickets ⟨0, 0⟩ s (Path.of_exec hs)
  exact ⟨s, hminted, hpresented, hspent, honce, hbounded⟩

end Invariant

end Subdux
