import Mathlib.Data.List.Nodup
import Subdux.Lib.Runs
/-!
# Programs that start over

A program is a list of jobs, and a job a list of phases. A phase reads the data once and
plans statements from what it read; a statement is one atomic write, which may be refused.
A job that came through is written to a journal. A process that dies loses its place: the
next one skips the jobs of the journal and begins the first other job again.

A phase is `Resumable` when, on the data that a part of it left, its plan is statements that
change nothing and then the rest of that part's plan, and `Lasting` under another when the
other's statements leave it nothing to do. With both, every data that restarted processes
reach is one that an uninterrupted run reaches, with some readings (`came_of_booted`).
-/

namespace Restarts
open Runs

variable {ν σ ι κ : Type*}

abbrev Phase (σ ι : Type*) := σ → List ι

structure Job (ν σ ι : Type*) where
  name : ν
  phases : List (Phase σ ι)

/-- Where a process stands: what is left of the plan of a phase, the phases that have not
begun, the name of the job they are of, and the jobs after it. -/
structure Process (ν σ ι : Type*) where
  todo : List ι
  phases : List (Phase σ ι)
  current : Option ν
  jobs : List (Job ν σ ι)

structure System (ν σ ι : Type*) where
  data : σ
  journal : List ν
  process : Option (Process ν σ ι)
  /-- A process has come through. -/
  booted : Bool
  /-- A statement was refused. -/
  failed : Bool

inductive Event (κ : Type*) where
  | boot
  | work (reading : κ)
  | crash

section Machine
variable [DecidableEq ν] (act : κ → ι → σ → Option σ)

def System.work (s : System ν σ ι) (p : Process ν σ ι) (k : κ) : System ν σ ι :=
  match p.todo with
  | i :: todo =>
    match act k i s.data with
    | none => { s with process := none, failed := true }
    | some data => { s with data := data, process := some { p with todo := todo } }
  | [] =>
    match p.phases with
    | phase :: phases => { s with process := some { p with todo := phase s.data, phases := phases } }
    | [] =>
      match p.current with
      | some name =>
        { s with journal := s.journal ++ [name], process := some { p with current := none } }
      | none =>
        match p.jobs with
        | [] => { s with process := none, booted := true }
        | job :: jobs =>
          if job.name ∈ s.journal then { s with process := some { p with jobs := jobs } }
          else { s with process := some ⟨[], job.phases, some job.name, jobs⟩ }

def step (program : List (Job ν σ ι)) (s : System ν σ ι) : Event κ → Option (System ν σ ι)
  | .boot =>
    match s.process with
    | none => some { s with process := some ⟨[], [], none, program⟩ }
    | some _ => none
  | .work k => s.process.map fun p => s.work act p k
  | .crash => s.process.map fun _ => { s with process := none }

/-- Nothing has run. -/
def initial (data : σ) : System ν σ ι := ⟨data, [], none, false, false⟩

end Machine

/-! ## Uninterrupted runs -/

section Runs
variable (act : κ → ι → σ → Option σ)

/-- The statements run one after the other, each with some reading. -/
inductive Ran : List ι → σ → σ → Prop where
  | nil (s : σ) : Ran [] s s
  | cons {i : ι} {is : List ι} {k : κ} {s t u : σ} (h : act k i s = some t)
    (rest : Ran is t u) : Ran (i :: is) s u

/-- The phases run one after the other, from their first statement to their last. -/
inductive Came : List (Phase σ ι) → σ → σ → Prop where
  | nil (s : σ) : Came [] s s
  | cons {p : Phase σ ι} {ps : List (Phase σ ι)} {s t u : σ} (h : Ran act (p s) s t)
    (rest : Came ps t u) : Came (p :: ps) s u

/-- A process that began `ps` on `s` has reached `t`, with these statements and phases left. -/
inductive Within (ps : List (Phase σ ι)) (s : σ) : List ι → List (Phase σ ι) → σ → Prop where
  | start : Within ps s [] ps s
  | phase {p : Phase σ ι} {rest : List (Phase σ ι)} {t : σ}
    (h : Within ps s [] (p :: rest) t) : Within ps s (p t) rest t
  | statement {i : ι} {todo : List ι} {rest : List (Phase σ ι)} {k : κ} {t u : σ}
    (h : Within ps s (i :: todo) rest t)
      (hact : act k i t = some u) : Within ps s todo rest u

/-- The statements change nothing. -/
def Idle (is : List ι) (s : σ) : Prop := ∀ i ∈ is, ∀ k, act k i s = some s

variable {act} {is js : List ι} {ps qs : List (Phase σ ι)} {s t u : σ}

theorem Ran.append (h : Ran act is s t) (h' : Ran act js t u) : Ran act (is ++ js) s u := by
  induction h with
  | nil => exact h'
  | cons hi _ ih => exact .cons hi (ih h')

theorem Ran.split (h : Ran act (is ++ js) s u) : ∃ t, Ran act is s t ∧ Ran act js t u := by
  induction is generalizing s with
  | nil => exact ⟨s, .nil s, h⟩
  | cons i is ih =>
    cases h with
    | cons hi rest =>
      obtain ⟨t, his, hjs⟩ := ih rest
      exact ⟨t, .cons hi his, hjs⟩

theorem Came.append (h : Came act ps s t) (h' : Came act qs t u) : Came act (ps ++ qs) s u := by
  induction h with
  | nil => exact h'
  | cons hp _ ih => exact .cons hp (ih h')

theorem Came.split (h : Came act (ps ++ qs) s u) : ∃ t, Came act ps s t ∧ Came act qs t u := by
  induction ps generalizing s with
  | nil => exact ⟨s, .nil s, h⟩
  | cons p ps ih =>
    cases h with
    | cons hp rest =>
      obtain ⟨t, hps, hqs⟩ := ih rest
      exact ⟨t, .cons hp hps, hqs⟩

theorem Idle.ran (h : Idle act is s) (hran : Ran act is s t) : t = s := by
  induction hran with
  | nil => rfl
  | cons hi _ ih =>
    cases (h _ List.mem_cons_self _).symm.trans hi
    exact ih fun i hmem => h i (List.mem_cons_of_mem _ hmem)

/-- What every statement of a plan keeps, running the plan keeps. -/
theorem Ran.keeps {P : σ → Prop} (hkeep : ∀ i ∈ is, ∀ k s t, act k i s = some t → P s → P t)
    (h : Ran act is s t) (hs : P s) :
    P t := by
  induction h with
  | nil => exact hs
  | cons hi _ ih =>
    refine ih (fun i hmem => hkeep i (List.mem_cons_of_mem _ hmem)) ?_
    exact hkeep _ List.mem_cons_self _ _ _ hi hs

/-- Phases that have nothing to do leave the data. -/
theorem Came.of_idle (h : ∀ p ∈ ps, Idle act (p s) s) (hcame : Came act ps s t) : t = s := by
  induction hcame with
  | nil => rfl
  | cons hran _ ih =>
    cases (h _ List.mem_cons_self).ran hran
    exact ih fun p hp => h p (List.mem_cons_of_mem _ hp)

/-- Where an attempt stands: at its start, or in the plan of one of its phases. -/
theorem Within.cases {todo : List ι} {rest : List (Phase σ ι)} (h : Within act ps s todo rest t) :
    (todo = [] ∧ rest = ps ∧ t = s) ∨
      ∃ before p a pre, ps = before ++ p :: rest ∧ Came act before s a ∧ p a = pre ++ todo ∧
        Ran act pre a t := by
  induction h with
  | start => exact .inl ⟨rfl, rfl, rfl⟩
  | @phase p rest t _ ih =>
    right
    rcases ih with ⟨-, hrest, rfl⟩ | ⟨before, q, a, pre, hps, hbefore, hplan, hran⟩
    · exact ⟨[], p, t, [], hrest.symm, .nil t, rfl, .nil t⟩
    · refine ⟨before ++ [q], p, t, [], by simpa using hps, ?_, rfl, .nil t⟩
      rw [List.append_nil] at hplan
      exact hbefore.append (.cons (hplan ▸ hran) (.nil t))
  | @statement i todo rest k t u _ hact ih =>
    right
    rcases ih with ⟨hnil, -⟩ | ⟨before, q, a, pre, hps, hbefore, hplan, hran⟩
    · cases hnil
    · exact ⟨before, q, a, pre ++ [i], hps, hbefore, by simpa using hplan,
        hran.append (.cons hact (.nil u))⟩

/-- An attempt with nothing left came through. -/
theorem Within.came (h : Within act ps s [] [] t) : Came act ps s t := by
  rcases h.cases with ⟨-, rfl, rfl⟩ | ⟨before, p, a, pre, rfl, hbefore, hplan, hran⟩
  · exact .nil _
  · rw [List.append_nil] at hplan
    exact hbefore.append (.cons (hplan ▸ hran) (.nil t))

end Runs

/-! ## Phases that can be run again -/

section Restart
variable (act : κ → ι → σ → Option σ) (Inv : σ → Prop)

/-- On what a part of its plan left, the phase plans statements that change nothing and then
the rest of that plan. -/
def Resumable (p : Phase σ ι) : Prop :=
  ∀ s t pre post, Inv s → p s = pre ++ post → Ran act pre s t → ∃ pre', p t = pre' ++ post ∧
    Idle act pre' t

/-- The statements that `p` plans leave `q` nothing to do where it had nothing to do. -/
def Lasting (q p : Phase σ ι) : Prop :=
  ∀ a, ∀ i ∈ p a, ∀ k s t, Inv s → act k i s = some t → Idle act (q s) s → Idle act (q t) t

/-- What restarts of a list of phases rest on: every statement keeps `Inv` and is accepted once
the phases before its own have nothing left to do. -/
structure Restartable (ps : List (Phase σ ι)) : Prop where
  keeps : ∀ p ∈ ps, ∀ a, ∀ i ∈ p a, ∀ k s t, Inv s → act k i s = some t → Inv t
  resumable : ∀ p ∈ ps, Resumable act Inv p
  lasting : ps.Pairwise (Lasting act Inv)
  accepted : ∀ before p after, ps = before ++ p :: after → ∀ a t pre i post, Inv a →
    (∀ q ∈ before, Idle act (q a) a) →
    p a = pre ++ i :: post → Ran act pre a t → ∀ k, (act k i t).isSome

variable {act Inv} {ps : List (Phase σ ι)} {p : Phase σ ι} {s t u : σ}

theorem Resumable.idle (h : Resumable act Inv p) (hs : Inv s) (hran : Ran act (p s) s t) :
    Idle act (p t) t := by
  obtain ⟨pre, hplan, hidle⟩ := h s t (p s) [] hs (List.append_nil _).symm hran
  rwa [hplan, List.append_nil]

/-- Running a plan keeps `Inv` and what the phases before it have settled. -/
theorem Ran.lasting {q : Phase σ ι}
    (hkeeps : ∀ a, ∀ i ∈ p a, ∀ k s t, Inv s → act k i s = some t → Inv t)
    (hlasting : Lasting act Inv q p) {a : σ} {is : List ι} (his : ∀ i ∈ is, i ∈ p a)
    (hran : Ran act is s t) (hs : Inv s) (hq : Idle act (q s) s) : Idle act (q t) t := by
  have hboth : Inv t ∧ Idle act (q t) t := by
    refine hran.keeps (P := fun s => Inv s ∧ Idle act (q s) s) ?_ ⟨hs, hq⟩
    rintro i hi k s t hact ⟨hs, hq⟩
    exact ⟨hkeeps a i (his i hi) k s t hs hact, hlasting a i (his i hi) k s t hs hact hq⟩
  exact hboth.2

theorem Came.inv (hkeeps : ∀ p ∈ ps, ∀ a, ∀ i ∈ p a, ∀ k s t, Inv s → act k i s = some t → Inv t)
    (h : Came act ps s t) (hs : Inv s) : Inv t := by
  induction h with
  | nil => exact hs
  | cons hran _ ih =>
    refine ih (fun p hp => hkeeps p (List.mem_cons_of_mem _ hp)) ?_
    exact hran.keeps (fun i hi k s t hact hs => hkeeps _ List.mem_cons_self _ i hi k s t hs hact) hs

/-- What a phase settled stays settled while the phases after it run. -/
theorem Came.lasting {q : Phase σ ι}
    (hkeeps : ∀ p ∈ ps, ∀ a, ∀ i ∈ p a, ∀ k s t, Inv s → act k i s = some t → Inv t)
    (hlasting : ∀ p ∈ ps, Lasting act Inv q p) (h : Came act ps s t) (hs : Inv s)
    (hq : Idle act (q s) s) :
    Idle act (q t) t := by
  induction h with
  | nil => exact hq
  | @cons p _ s _ _ hran _ ih =>
    have hp := hkeeps p List.mem_cons_self
    refine ih (fun p hp => hkeeps p (List.mem_cons_of_mem _ hp))
      (fun p hp => hlasting p (List.mem_cons_of_mem _ hp)) ?_ ?_
    · exact hran.keeps (fun i hi k _ _ hact hs => hp s i hi k _ _ hs hact) hs
    · exact hran.lasting hp (hlasting p List.mem_cons_self) (fun _ hi => hi) hs hq

/-- After a run of the phases none of them has anything left to do. -/
theorem Came.idle (hkeeps : ∀ p ∈ ps, ∀ a, ∀ i ∈ p a, ∀ k s t, Inv s → act k i s = some t → Inv t)
    (hresumable : ∀ p ∈ ps, Resumable act Inv p) (hlasting : ps.Pairwise (Lasting act Inv))
    (h : Came act ps s t) (hs : Inv s) :
    ∀ p ∈ ps, Idle act (p t) t := by
  induction h with
  | nil => simp
  | @cons p ps s m t hran rest ih =>
    obtain ⟨hlast, hpairs⟩ := List.pairwise_cons.1 hlasting
    have hrest := fun p hp => hkeeps p (List.mem_cons_of_mem _ hp)
    have hm : Inv m :=
      hran.keeps (fun i hi k _ _ hact hs => hkeeps _ List.mem_cons_self s i hi k _ _ hs hact) hs
    intro q hq
    rcases List.mem_cons.1 hq with rfl | hq
    · exact rest.lasting hrest hlast hm ((hresumable _ List.mem_cons_self).idle hs hran)
    · exact ih hrest (fun p hp => hresumable p (List.mem_cons_of_mem _ hp)) hpairs hm q hq

section Attempt
variable (h : Restartable act Inv ps)
include h

/-- The phases before the one under way have nothing left to do, and `Inv` holds. -/
theorem Restartable.within {before rest : List (Phase σ ι)} {a : σ} {pre todo : List ι}
    (hps : ps = before ++ p :: rest) (hs : Inv s) (hbefore : Came act before s a)
    (hplan : p a = pre ++ todo) (hran : Ran act pre a t) :
    Inv a ∧ Inv t ∧ (∀ q ∈ before, Idle act (q a) a) ∧ ∀ q ∈ before, Idle act (q t) t := by
  subst hps
  obtain ⟨hpairs, -, hcross⟩ := List.pairwise_append.1 h.lasting
  have hkeeps := fun q hq => h.keeps q (List.mem_append_left _ hq)
  have hp := h.keeps p (by simp)
  have ha := hbefore.inv hkeeps hs
  have hpre : ∀ i ∈ pre, i ∈ p a := fun i hi => hplan ▸ List.mem_append_left _ hi
  have hidle := hbefore.idle hkeeps (fun q hq => h.resumable q (List.mem_append_left _ hq)) hpairs hs
  refine ⟨ha, hran.keeps (fun i hi k s t hact hs => hp a i (hpre i hi) k s t hs hact) ha, hidle,
    fun q hq => ?_⟩
  exact hran.lasting hp (hcross q hq p List.mem_cons_self) hpre ha (hidle q hq)

theorem Restartable.within_inv {todo : List ι} {rest : List (Phase σ ι)} (hs : Inv s)
    (hwithin : Within act ps s todo rest t) :
    Inv t := by
  rcases hwithin.cases with ⟨-, -, rfl⟩ | ⟨before, p, a, pre, hps, hbefore, hplan, hran⟩
  · exact hs
  · exact (h.within hps hs hbefore hplan hran).2.1

/-- The next statement of an attempt is not refused. -/
theorem Restartable.accepts {i : ι} {todo : List ι} {rest : List (Phase σ ι)} (hs : Inv s)
    (hwithin : Within act ps s (i :: todo) rest t) (k : κ) : (act k i t).isSome := by
  rcases hwithin.cases with ⟨hnil, -⟩ | ⟨before, p, a, pre, hps, hbefore, hplan, hran⟩
  · cases hnil
  · obtain ⟨ha, -, hidle, -⟩ := h.within hps hs hbefore hplan hran
    exact h.accepted before p rest hps a t pre i todo ha hidle hplan hran k

/-- An attempt that stopped anywhere, and one that came through after it, are one that came
through. -/
theorem Restartable.absorbs {todo : List ι} {rest : List (Phase σ ι)} (hs : Inv s)
    (hwithin : Within act ps s todo rest t) (hagain : Came act ps t u) : Came act ps s u := by
  rcases hwithin.cases with ⟨-, -, rfl⟩ | ⟨before, p, a, pre, rfl, hbefore, hplan, hran⟩
  · exact hagain
  · obtain ⟨ha, -, -, hidle⟩ := h.within rfl hs hbefore hplan hran
    obtain ⟨b, hb, hrest⟩ := hagain.split
    cases Came.of_idle hidle hb
    cases hrest with
    | cons hp hafter =>
      obtain ⟨pre', hplan', hnothing⟩ := h.resumable p (by simp) a t pre todo ha hplan hran
      rw [hplan'] at hp
      obtain ⟨c, hpre', htodo⟩ := hp.split
      cases hnothing.ran hpre'
      refine hbefore.append (.cons ?_ hafter)
      rw [hplan]
      exact hran.append htodo

end Attempt

/-! ### Phases that go through the rows -/

section Sweep
variable {act : κ → ι → σ → Option σ} {Inv : σ → Prop} {ρ χ : Type*} [DecidableEq χ] {key : ρ → χ}
  {get : σ → List ρ}
  {statement : ρ → ι} {Normal : σ → ρ → Prop}

theorem replace_key {done rest : List ρ} {r : ρ} {out : List ρ}
    (hkeys : ((done ++ r :: rest).map key).Nodup) :
    (done ++ r :: rest).flatMap (fun x => if key x = key r then out else [x]) = done ++ out ++ rest := by
  have hsame : ∀ l : List ρ, (∀ x ∈ l, key x ≠ key r) →
      l.flatMap (fun x => if key x = key r then out else [x]) = l := by
    intro l hl
    induction l with
    | nil => rfl
    | cons x l ih =>
      rw [List.flatMap_cons, if_neg (hl x List.mem_cons_self), ih fun y hy =>
        hl y (List.mem_cons_of_mem x hy)]
      rfl
  rw [List.map_append, List.nodup_append] at hkeys
  obtain ⟨-, hrest, happart⟩ := hkeys
  rw [List.map_cons, List.nodup_cons] at hrest
  rw [List.flatMap_append, List.flatMap_cons, if_pos rfl, hsame, hsame, List.append_assoc]
  · intro x hx hkey
    exact hrest.1 (hkey ▸ List.mem_map_of_mem hx)
  · intro x hx hkey
    exact happart _ (List.mem_map_of_mem hx) (key r) (by simp) hkey

variable (hkeys : ∀ s, Inv s → ((get s).map key).Nodup)
  (hinv : ∀ r k s t, Inv s → act k (statement r) s = some t → Inv t)
  (hkeep : ∀ r x k s t, act k (statement r) s = some t → Normal s x → Normal t x)
  (hstep : ∀ r k s t, Inv s → r ∈ get s → act k (statement r) s = some t →
    ∃ out : Option ρ, get t = (get s).flatMap (fun x => if key x = key r then out.toList else [x]) ∧
      ∀ x ∈ out, Normal t x)
include hkeys hinv hkeep hstep

/-- What a part of the rows' statements leaves: rows in order before the rows that were not reached. -/
theorem sweep_ran {done pre post : List ρ} {s t : σ} (hs : Inv s) (hget : get s = done ++ pre ++ post)
    (hdone : ∀ x ∈ done, Normal s x) (hran : Ran act (pre.map statement) s t) :
    ∃ done', get t = done' ++ post ∧ ∀ x ∈ done', Normal t x := by
  induction pre generalizing s done with
  | nil =>
    cases hran
    exact ⟨done, by simpa using hget, hdone⟩
  | cons r pre ih =>
    cases hran with
    | @cons _ _ k _ m _ hact hrest =>
      have hget' : get s = done ++ r :: (pre ++ post) := by simpa using hget
      obtain ⟨out, hm, hout⟩ := hstep r k s m hs (by simp [hget']) hact
      have hnodup := hkeys s hs
      rw [hget'] at hm hnodup
      rw [replace_key hnodup, ← List.append_assoc] at hm
      refine ih (hinv r k s m hs hact) hm ?_ hrest
      intro x hx
      rcases List.mem_append.1 hx with hx | hx
      · exact hkeep r x k s m hact (hdone x hx)
      · exact hout x (by simpa using hx)

variable (key Normal) in
/-- A phase with a statement for each row, which makes the row normal or deletes it. -/
theorem resumable_sweep (hidle : ∀ s x k, Normal s x → act k (statement x) s = some s) :
    Resumable act Inv fun s => (get s).map statement := by
  intro s t pre post hs hplan hran
  obtain ⟨rows, rest, hget, rfl, rfl⟩ := List.map_eq_append_iff.1 hplan
  have hget' : get s = [] ++ rows ++ rest := hget
  obtain ⟨done, ht, hdone⟩ := sweep_ran hkeys hinv hkeep hstep hs hget' (by simp) hran
  dsimp only
  refine ⟨done.map statement, by rw [ht, List.map_append], ?_⟩
  intro i hi k
  obtain ⟨x, hx, rfl⟩ := List.mem_map.1 hi
  exact hidle t x k (hdone x hx)

end Sweep

/-- A phase whose plan does not depend on the data, of statements that need to run only once. -/
theorem resumable_fixed {act : κ → ι → σ → Option σ} {Inv : σ → Prop} {plan : List ι}
    (Done : ι → σ → Prop) (honce : ∀ i ∈ plan, ∀ k s t, act k i s = some t → Done i t)
    (hkeep : ∀ i ∈ plan, ∀ j ∈ plan, ∀ k s t, act k j s = some t → Done i s → Done i t)
    (hidle : ∀ i ∈ plan, ∀ k s, Done i s → act k i s = some s) : Resumable act Inv fun _ => plan := by
  intro s t pre post hs hplan hran
  clear hs
  dsimp only at hplan
  refine ⟨pre, hplan, fun i hi k => hidle i (hplan ▸ List.mem_append_left _ hi) k t ?_⟩
  have hin : ∀ j ∈ pre, j ∈ plan := fun j hj => hplan ▸ List.mem_append_left _ hj
  clear hplan
  induction hran with
  | nil => cases hi
  | @cons j is k' s m t hact hrest ih =>
    have his := fun x hx => hin x (List.mem_cons_of_mem j hx)
    rcases List.mem_cons.1 hi with rfl | hi
    · refine hrest.keeps (P := Done i) ?_ (honce i (hin i hi) _ _ _ hact)
      exact fun x hx k s t => hkeep i (hin i List.mem_cons_self) x (his x hx) k s t
    · exact ih hi his

end Restart

/-! ## Processes that die and start again -/

section System
variable [DecidableEq ν] (act : κ → ι → σ → Option σ) (Inv : σ → Prop) (program : List (Job ν σ ι))
  (start : σ)

/-- A run of `ps` from `t` is also one from `d`. -/
def Resumes (ps : List (Phase σ ι)) (d t : σ) : Prop := ∀ u, Came act ps t u → Came act ps d u

def nextPhases : List (Job ν σ ι) → List (Phase σ ι)
  | [] => []
  | job :: _ => job.phases

/-- A process beside the jobs in the journal, `done`, and the others: none, one that skips jobs
of the journal, or one in an attempt at the first other job. `d` is what `done` left. -/
inductive Standing (done rest : List (Job ν σ ι)) (d t : σ) : Option (Process ν σ ι) → Prop where
  | down (h : Resumes act (nextPhases rest) d t) : Standing done rest d t none
  | skipping {before left : List (Job ν σ ι)} (hleft : done = before ++ left)
    (h : Resumes act (nextPhases rest) d t) :
      Standing done rest d t (some ⟨[], [], none, left ++ rest⟩)
  | running {job : Job ν σ ι} {jobs : List (Job ν σ ι)} {a : σ} {todo : List ι}
    {phases : List (Phase σ ι)}
      (hrest : rest = job :: jobs) (ha : Inv a) (h : Resumes act job.phases d a)
      (hwithin : Within act job.phases a todo phases t) :
      Standing done rest d t (some ⟨todo, phases, some job.name, jobs⟩)

structure SystemInv (s : System ν σ ι) : Prop where
  inv : Inv s.data
  unfailed : s.failed = false
  stands : ∃ done rest d, program = done ++ rest ∧ s.journal = done.map (·.name) ∧
    Came act (done.flatMap (·.phases)) start d ∧
    Standing act Inv done rest d s.data s.process ∧ (s.booted = true → rest = [])

variable {act Inv program start} {done rest : List (Job ν σ ι)} {d t : σ} {s s' : System ν σ ι}
  {p : Process ν σ ι}

theorem Resumes.refl (ps : List (Phase σ ι)) (d : σ) : Resumes act ps d d := fun _ h => h

omit [DecidableEq ν] in
/-- When a process dies. -/
theorem Standing.crash (hrest : ∀ job ∈ rest, Restartable act Inv job.phases)
    (h : Standing act Inv done rest d t (some p)) : Resumes act (nextPhases rest) d t := by
  cases h with
  | skipping _ h => exact h
  | running hjob ha h hwithin =>
    subst hjob
    intro u hu
    exact h u ((hrest _ List.mem_cons_self).absorbs ha hwithin hu)

variable (hprogram : ∀ job ∈ program, Restartable act Inv job.phases)
  (hnames : (program.map (·.name)).Nodup)
include hprogram hnames

theorem SystemInv.work (h : SystemInv act Inv program start s) (hp : s.process = some p) (k : κ) :
    SystemInv act Inv program start (s.work act p k) := by
  obtain ⟨hinv, hunfailed, done, rest, d, hdone, hjournal, hcame, hstanding, hbooted⟩ := h
  rw [hp] at hstanding
  cases hstanding with
  | @skipping before left hleft hresumes =>
    cases left with
    | cons job left =>
      -- a job of the journal is skipped
      have hin : job.name ∈ s.journal := by
        rw [hjournal, hleft]
        simp
      simp only [System.work, List.cons_append, if_pos hin]
      refine ⟨hinv, hunfailed, done, rest, d, hdone, hjournal, hcame, ?_, hbooted⟩
      have hleft' : done = (before ++ [job]) ++ left := by simpa using hleft
      exact .skipping hleft' hresumes
    | nil =>
      cases rest with
      | nil =>
        exact ⟨hinv, hunfailed, done, [], d, hdone, hjournal, hcame, .down hresumes, fun _ => rfl⟩
      | cons job jobs =>
        have hout : job.name ∉ s.journal := by
          rw [hdone, List.map_append, List.nodup_append] at hnames
          rw [hjournal]
          exact fun hin => hnames.2.2 _ hin job.name (by simp) rfl
        simp only [System.work, List.nil_append, if_neg hout]
        exact ⟨hinv, hunfailed, done, job :: jobs, d, hdone, hjournal, hcame,
          .running rfl hinv hresumes .start, hbooted⟩
  | @running job jobs a todo phases hrest ha hresumes hwithin =>
    have hjob := hprogram job (by simp [hdone, hrest])
    cases todo with
    | cons i todo =>
      obtain ⟨data, hact⟩ := Option.isSome_iff_exists.1 (hjob.accepts ha hwithin k)
      simp only [System.work, hact]
      have hnext := hwithin.statement hact
      exact ⟨hjob.within_inv ha hnext, hunfailed, done, rest, d, hdone, hjournal, hcame,
        .running hrest ha hresumes hnext,
        hbooted⟩
    | nil =>
      cases phases with
      | cons phase phases =>
        exact ⟨hinv, hunfailed, done, rest, d, hdone, hjournal, hcame,
          .running hrest ha hresumes hwithin.phase, hbooted⟩
      | nil =>
        -- the job came through: from its first attempt's data, by what the attempts absorb
        subst hrest
        refine ⟨hinv, hunfailed, done ++ [job], jobs, s.data, by simpa using hdone, ?_, ?_, ?_, ?_⟩
        · simp [System.work, hjournal]
        · rw [List.flatMap_append]
          refine hcame.append ?_
          rw [List.flatMap_singleton]
          exact hresumes _ (hwithin.came)
        · have hnone : done ++ [job] = (done ++ [job]) ++ [] := by simp
          exact .skipping hnone (.refl _ _)
        · intro hboot
          cases hbooted hboot

theorem SystemInv.step (h : SystemInv act Inv program start s) {e : Event κ}
    (hstep : step act program s e = some s') :
    SystemInv act Inv program start s' := by
  cases e with
  | work k =>
    obtain ⟨p, hp, rfl⟩ := Option.map_eq_some_iff.1 hstep
    exact h.work hprogram hnames hp k
  | boot =>
    unfold Restarts.step at hstep
    dsimp only at hstep
    obtain ⟨hinv, hunfailed, done, rest, d, hdone, hjournal, hcame, hstanding, hbooted⟩ := h
    split at hstep
    · rename_i hnone
      obtain rfl := Option.some.inj hstep
      rw [hnone] at hstanding
      cases hstanding with
      | down hresumes =>
        refine ⟨hinv, hunfailed, done, rest, d, hdone, hjournal, hcame, ?_, hbooted⟩
        rw [hdone]
        have hall : done = [] ++ done := rfl
        exact .skipping hall hresumes
    · cases hstep
  | crash =>
    obtain ⟨p, hp, rfl⟩ := Option.map_eq_some_iff.1 hstep
    obtain ⟨hinv, hunfailed, done, rest, d, hdone, hjournal, hcame, hstanding, hbooted⟩ := h
    rw [hp] at hstanding
    refine ⟨hinv, hunfailed, done, rest, d, hdone, hjournal, hcame, .down (hstanding.crash ?_), hbooted⟩
    exact fun job hjob => hprogram job (hdone ▸ List.mem_append_right _ hjob)

theorem SystemInv.of_path (hstart : Inv start)
    (h : Path (Restarts.step act program) Always (initial start) s) :
    SystemInv act Inv program start s := by
  refine h.invariant _ (fun t e u ht _ hstep => ht.step hprogram hnames hstep) ?_
  exact ⟨hstart, rfl, [], program, start, rfl, rfl, .nil start, .down (.refl _ _), fun h => by cases h⟩

/-- However often the processes died: the journal lists the first jobs of the program, no
statement was refused, and once a process has come through the data is what an
uninterrupted run of the program leaves. -/
theorem came_of_booted (hstart : Inv start) (h : Path (step act program) Always (initial start) s) :
    s.journal <+: program.map (·.name) ∧ s.failed = false ∧
      (s.booted = true → s.journal = program.map (·.name) ∧
        Came act (program.flatMap (·.phases)) start s.data) := by
  obtain ⟨-, hunfailed, done, rest, d, hdone, hjournal, hcame, hstanding, hbooted⟩ :=
    SystemInv.of_path hprogram hnames hstart h
  refine ⟨?_, hunfailed, fun hboot => ?_⟩
  · rw [hjournal, hdone, List.map_append]
    exact List.prefix_append _ _
  · obtain rfl := hbooted hboot
    rw [List.append_nil] at hdone
    subst hdone
    refine ⟨hjournal, ?_⟩
    have hsame : Resumes act [] d s.data := by
      generalize s.process = process at hstanding
      cases hstanding with
      | down h => exact h
      | skipping _ h => exact h
      | running hrest => cases hrest
    cases hsame s.data (.nil _)
    exact hcame

end System

/-! ## What every plan keeps -/

section Keeps
variable [DecidableEq ν] {act : κ → ι → σ → Option σ} {Inv : σ → Prop} {program : List (Job ν σ ι)}
  {start : σ} {s : System ν σ ι}
  {p : Process ν σ ι}

/-- A relation that the first statements of every plan stand in. -/
def Relates (act : κ → ι → σ → Option σ) (Inv : σ → Prop) (R : σ → σ → Prop)
    (ps : List (Phase σ ι)) : Prop :=
  ∀ p ∈ ps, ∀ s t pre post, Inv s → p s = pre ++ post → Ran act pre s t → R s t

/-- The data stands in `R`, and so does the data that the plan under way was made from. -/
structure Traced (act : κ → ι → σ → Option σ) (Inv : σ → Prop) (program : List (Job ν σ ι))
    (R : σ → σ → Prop) (start : σ) (s : System ν σ ι) : Prop where
  data : R start s.data
  plan : ∀ p, s.process = some p → p.todo = [] ∨ ∃ q ∈ program.flatMap (·.phases), ∃ a pre,
    R start a ∧ Inv a ∧ q a = pre ++ p.todo ∧ Ran act pre a s.data
  phases : ∀ p, s.process = some p → p.phases ⊆ program.flatMap (·.phases) ∧ p.jobs ⊆ program

section Trace
variable {R : σ → σ → Prop} (htrans : ∀ s t u, R s t → R t u → R s u)
  (hphases : Relates act Inv R (program.flatMap (·.phases)))
include htrans hphases

theorem Traced.work (h : Traced act Inv program R start s) (hinv : Inv s.data)
    (hp : s.process = some p) (k : κ) :
    Traced act Inv program R start (s.work act p k) := by
  obtain ⟨hdata, hplan, hleft⟩ := h
  obtain ⟨hin, hjobs⟩ := hleft p hp
  have hplan := hplan p hp
  obtain ⟨todo, phases, current, jobs⟩ := p
  dsimp only at hin hjobs hplan
  cases todo with
  | cons i todo =>
    simp only [System.work]
    cases hact : act k i s.data with
    | none => exact ⟨hdata, fun q hq => (by cases hq), fun q hq => (by cases hq)⟩
    | some data =>
      obtain hnil | ⟨q, hq, a, pre, hR, ha, hqa, hran⟩ := hplan
      · cases hnil
      -- the statement run is the next of the phase, so the trace of the phase grows by it
      have hran' : Ran act (pre ++ [i]) a data := hran.append (.cons hact (.nil data))
      have hqa' : q a = (pre ++ [i]) ++ todo := by simpa using hqa
      refine ⟨htrans _ _ _ hR (hphases q hq a data _ _ ha hqa' hran'), fun p hp => ?_, fun p hp => ?_⟩
      · obtain rfl := Option.some.inj hp
        exact .inr ⟨q, hq, a, _, hR, ha, hqa', hran'⟩
      · obtain rfl := Option.some.inj hp
        exact ⟨hin, hjobs⟩
  | nil =>
    cases phases with
    | cons phase phases =>
      -- a phase begins: its trace is empty, and the data are those it starts from
      refine ⟨hdata, fun p hp => ?_, fun p hp => ?_⟩
      · obtain rfl := Option.some.inj hp
        exact .inr ⟨phase, hin List.mem_cons_self, s.data, [], hdata, hinv, rfl, .nil _⟩
      · obtain rfl := Option.some.inj hp
        exact ⟨fun q hq => hin (List.mem_cons_of_mem _ hq), hjobs⟩
    | nil =>
      cases current with
      | some name =>
        refine ⟨hdata, fun p hp => ?_, fun p hp => ?_⟩
        · obtain rfl := Option.some.inj hp
          exact .inl rfl
        · obtain rfl := Option.some.inj hp
          exact ⟨hin, hjobs⟩
      | none =>
        cases jobs with
        | nil => exact ⟨hdata, fun p hp => (by cases hp), fun p hp => (by cases hp)⟩
        | cons job jobs =>
          have hjobs' : jobs ⊆ program := fun j hj => hjobs (List.mem_cons_of_mem _ hj)
          simp only [System.work]
          split
          · refine ⟨hdata, fun p hp => ?_, fun p hp => ?_⟩
            · obtain rfl := Option.some.inj hp
              exact .inl rfl
            · obtain rfl := Option.some.inj hp
              exact ⟨hin, hjobs'⟩
          · refine ⟨hdata, fun p hp => ?_, fun p hp => ?_⟩
            · obtain rfl := Option.some.inj hp
              exact .inl rfl
            · obtain rfl := Option.some.inj hp
              exact ⟨fun q hq => List.mem_flatMap.2 ⟨job, hjobs List.mem_cons_self, hq⟩, hjobs'⟩

variable (hprogram : ∀ job ∈ program, Restartable act Inv job.phases)
  (hnames : (program.map (·.name)).Nodup)
include hprogram hnames

/-- At every moment, also where a process died, the data stands in `R` to what there was. -/
theorem relates_of_path (hrefl : ∀ s, R s s) (hstart : Inv start)
    (h : Path (Restarts.step act program) Always (initial start) s) : R start s.data := by
  have hboth : SystemInv act Inv program start s ∧ Traced act Inv program R start s := by
    refine h.invariant (fun s => SystemInv act Inv program start s ∧ Traced act Inv program R start s) ?_
      ⟨.of_path hprogram hnames hstart .refl, hrefl start, fun p hp => (by cases hp), fun p hp =>
        (by cases hp)⟩
    rintro t e u ⟨hinv, htraced⟩ - hstep
    refine ⟨hinv.step hprogram hnames hstep, ?_⟩
    cases e with
    | work k =>
      obtain ⟨p, hp, rfl⟩ := Option.map_eq_some_iff.1 hstep
      exact htraced.work htrans hphases hinv.inv hp k
    | boot =>
      unfold Restarts.step at hstep
      dsimp only at hstep
      split at hstep
      · obtain rfl := Option.some.inj hstep
        refine ⟨htraced.data, fun p hp => ?_, fun p hp => ?_⟩
        · obtain rfl := Option.some.inj hp
          exact .inl rfl
        · obtain rfl := Option.some.inj hp
          exact ⟨List.nil_subset _, List.Subset.refl _⟩
      · cases hstep
    | crash =>
      obtain ⟨p, hp, rfl⟩ := Option.map_eq_some_iff.1 hstep
      exact ⟨htraced.data, fun q hq => (by cases hq), fun q hq => (by cases hq)⟩
  exact hboth.2.data

end Trace

end Keeps

/-! ## A process that is left alone -/

section Alone
variable [DecidableEq ν] (act : κ → ι → σ → Option σ)

/-- `n` steps of the process, with the readings of a clock. -/
def attempt (clock : Nat → κ) : Nat → System ν σ ι → System ν σ ι
  | 0, s => s
  | n + 1, s =>
    match s.process with
    | none => s
    | some p => attempt (fun i => clock (i + 1)) n (s.work act p (clock 0))

/-- With any clock, the process ends: it came through, or a statement was refused. -/
def Ends (s : System ν σ ι) : Prop :=
  ∀ clock, ∃ n, (attempt act clock n s).process = none ∧
  ((attempt act clock n s).booted = true ∨ (attempt act clock n s).failed = true)

variable {act} {s : System ν σ ι} {p : Process ν σ ι}

theorem attempt_path (program : List (Job ν σ ι)) (clock : Nat → κ) (n : Nat) (s : System ν σ ι) :
    Path (step act program) Always s (attempt act clock n s) := by
  induction n generalizing s clock with
  | zero => exact .refl
  | succ n ih =>
    cases hp : s.process with
    | none =>
      simp only [attempt, hp]
      exact .refl
    | some p =>
      simp only [attempt, hp]
      have hstep : step act program s (.work (clock 0)) = some (s.work act p (clock 0)) := by
        simp [step, hp]
      have hone : Path (step act program) Always s (s.work act p (clock 0)) :=
        .snoc _ .refl trivial hstep
      exact hone.trans (ih _ _)

theorem Ends.of_work (hp : s.process = some p) (h : ∀ k, Ends act (s.work act p k)) : Ends act s := by
  intro clock
  obtain ⟨n, hn⟩ := h (clock 0) fun i => clock (i + 1)
  refine ⟨n + 1, ?_⟩
  simp only [attempt, hp]
  exact hn

theorem Ends.of_failed (hp : s.process = none) (hfailed : s.failed = true) : Ends act s :=
  fun _ => ⟨0, hp, .inr hfailed⟩

/-- A plan ends when what follows it does. -/
theorem ends_of_todo {phases : List (Phase σ ι)} {current : Option ν} {jobs : List (Job ν σ ι)}
    (h : ∀ s : System ν σ ι, s.process = some ⟨[], phases, current, jobs⟩ → Ends act s) (todo : List ι) :
    ∀ s : System ν σ ι, s.process = some ⟨todo, phases, current, jobs⟩ → Ends act s := by
  induction todo with
  | nil => exact h
  | cons i todo ih =>
    intro s hp
    refine .of_work hp fun k => ?_
    cases hact : act k i s.data with
    | none => exact .of_failed (by simp [System.work, hact]) (by simp [System.work, hact])
    | some data => exact ih _ (by simp [System.work, hact])

theorem ends_of_phases {current : Option ν} {jobs : List (Job ν σ ι)}
    (h : ∀ s : System ν σ ι, s.process = some ⟨[], [], current, jobs⟩ → Ends act s)
    (phases : List (Phase σ ι)) :
    ∀ todo, ∀ s : System ν σ ι, s.process = some ⟨todo, phases, current, jobs⟩ → Ends act s := by
  induction phases with
  | nil => exact ends_of_todo h
  | cons phase phases ih =>
    refine ends_of_todo fun s hp => .of_work hp fun k => ?_
    exact ih (phase s.data) _ (by simp [System.work])

theorem ends (jobs : List (Job ν σ ι)) :
    ∀ current phases todo, ∀ s : System ν σ ι, s.process = some ⟨todo, phases, current, jobs⟩ →
    Ends act s := by
  induction jobs with
  | nil =>
    have hnone : ∀ s : System ν σ ι, s.process = some ⟨[], [], none, []⟩ → Ends act s :=
      fun s hp => .of_work hp fun k => fun _ => ⟨0, by simp [attempt, System.work]⟩
    intro current
    refine ends_of_phases ?_
    cases current with
    | none => exact hnone
    | some name => exact fun s hp => .of_work hp fun k => hnone _ (by simp [System.work])
  | cons job jobs ih =>
    have hnone : ∀ s : System ν σ ι, s.process = some ⟨[], [], none, job :: jobs⟩ → Ends act s := by
      refine fun s hp => .of_work hp fun k => ?_
      by_cases hin : job.name ∈ s.journal
      · exact ih none [] [] _ (by simp [System.work, hin])
      · exact ih (some job.name) job.phases [] _ (by simp [System.work, hin])
    intro current
    refine ends_of_phases ?_
    cases current with
    | none => exact hnone
    | some name => exact fun s hp => .of_work hp fun k => hnone _ (by simp [System.work])

/-- A process that is left alone comes through, wherever the ones before it died. -/
theorem comes_through {Inv : σ → Prop} {program : List (Job ν σ ι)} {start : σ}
    (hprogram : ∀ job ∈ program, Restartable act Inv job.phases)
    (hnames : (program.map (·.name)).Nodup) (hstart : Inv start)
    (h : Path (step act program) Always (initial start) s) (hp : s.process = some p) (clock : Nat → κ) :
    ∃ n, (attempt act clock n s).booted = true := by
  obtain ⟨n, -, hbooted | hfailed⟩ := ends p.jobs p.current p.phases p.todo s hp clock
  · exact ⟨n, hbooted⟩
  · have hunfailed :=
      (came_of_booted hprogram hnames hstart (h.trans (attempt_path program clock n s))).2.1
    rw [hunfailed] at hfailed
    cases hfailed

end Alone

end Restarts
