import Subdux.Lib.Results
import Subdux.Lib.Rotation
import Subdux.Sessions
/-!
# Chains of refresh tokens

Any number of clients call `RefreshSession`, `Logout`, `ChangePassword`,
`ChangeUserStatus` and the calls that log in; each statement or transaction on
`refresh_tokens` is one event. `chain` names the login that a token's chain starts
at, and `exchanged` the tokens whose exchange succeeded. Seen as a
`Rotation.State`, every event is a run of `Rotation`.
-/

namespace Subdux
open Runs Rows Results

structure ChainSystem where
  store : SessionStore
  chain : Nat → Nat
  exchanged : List Nat

inductive SessionEvent where
  /-- `issueAuthResponse`, for whoever calls it. -/
  | login (userID : Nat) (tokenHash : String) (expiresAt : Time)
  | refresh (rawRefreshToken : String) (now : Time) (newHash : String) (newExpires : Time)
  | logout (rawRefreshToken : String) (now : Time)
  | changePassword (userID : Nat) (hash : String) (now : Time)
  | changeUserStatus (userID : Nat) (status : String) (now : Time)

section System
variable (hashToken : String → String)

def ChainSystem.step (s : ChainSystem) : SessionEvent → Option ChainSystem
  | .login userID tokenHash expiresAt =>
    match insertRefreshToken userID tokenHash expiresAt s.store with
    | .error _ => some s
    | .ok store =>
      some
        { s with
          store := store, chain := Function.update s.chain s.store.nextTokenID s.store.nextTokenID }
  | .refresh raw now newHash newExpires =>
    match findRefreshable hashToken raw now s.store,
      refreshSession hashToken raw now newHash newExpires s.store with
    | .ok stored, .ok store =>
      some
        { store := store
          chain := Function.update s.chain s.store.nextTokenID (s.chain stored.id)
          exchanged := s.exchanged ++ [stored.id] }
    | _, _ => some s
  | .logout raw now => some { s with store := logout hashToken raw now s.store }
  | .changePassword userID hash now => some { s with store := changePassword userID hash now s.store }
  | .changeUserStatus userID status now =>
    match changeUserStatus userID status now s.store with
    | .error _ => some s
    | .ok store => some { s with store := store }

end System

/-- Before the first login. -/
structure ChainSystem.Initial (s : ChainSystem) : Prop where
  tokens : s.store.tokens = []
  exchanged : s.exchanged = []

def ChainSystem.unrevoked (s : ChainSystem) (chain : Nat) : List RefreshToken :=
  s.store.tokens.filter fun token => s.chain token.id = chain ∧ token.revokedAt.isNone

/-! ## As a rotation -/

def ChainSystem.item (s : ChainSystem) (token : RefreshToken) : Rotation.Item :=
  ⟨token.id, s.chain token.id, token.revokedAt.isNone⟩

def ChainSystem.rotation (s : ChainSystem) : Rotation.State :=
  ⟨s.store.tokens.map s.item, s.store.nextTokenID, s.exchanged⟩

/-- What the database keeps of the ids of `refresh_tokens`. -/
structure TokenIDs (store : SessionStore) : Prop where
  unique : (store.tokens.map (·.id)).Nodup
  fresh : ∀ token ∈ store.tokens, token.id < store.nextTokenID

section Store
variable {store store' : SessionStore} {p : RefreshToken → Bool} {revoke : RefreshToken → RefreshToken}

/-- A new row, whose id no row had. -/
theorem insertRefreshToken_ok {userID : Nat} {tokenHash : String} {expiresAt : Time}
    (h : insertRefreshToken userID tokenHash expiresAt store = .ok store') :
    store' = { store with
      tokens := store.tokens ++ [⟨store.nextTokenID, userID, tokenHash, expiresAt, none, none⟩]
      nextTokenID := store.nextTokenID + 1 } := by
  unfold insertRefreshToken at h
  split at h
  · cases h
  · exact (Except.ok.inj h).symm

theorem TokenIDs.revokeWhere (h : TokenIDs store) (hid : ∀ token, (revoke token).id = token.id) :
    TokenIDs (revokeWhere p revoke store) where
  unique := by
    rw [Subdux.revokeWhere, map_updateWhere RefreshToken.id hid]
    exact h.unique
  fresh := by
    intro token htoken
    rcases mem_updateWhere_cases htoken with ⟨hmem, -⟩ | ⟨old, hmem, -, rfl⟩
    · exact h.fresh token hmem
    · rw [hid]
      exact h.fresh old hmem

theorem TokenIDs.insert (h : TokenIDs store) {userID : Nat} {tokenHash : String} {expiresAt : Time}
    (hinsert : insertRefreshToken userID tokenHash expiresAt store = .ok store') : TokenIDs store' := by
  obtain rfl := insertRefreshToken_ok hinsert
  refine ⟨?_, ?_⟩
  · rw [List.map_append]
    refine List.nodup_append.2 ⟨h.unique, by simp, ?_⟩
    intro a ha b hb
    obtain ⟨token, htoken, rfl⟩ := List.mem_map.1 ha
    obtain rfl : b = store.nextTokenID := by simpa using hb
    exact (h.fresh token htoken).ne
  · intro token htoken
    rcases List.mem_append.1 htoken with htoken | htoken
    · exact Nat.lt_succ_of_lt (h.fresh token htoken)
    · obtain rfl := List.mem_singleton.1 htoken
      exact Nat.lt_succ_self _

end Store

section Abstraction
variable {s : ChainSystem} {store' : SessionStore} {p : RefreshToken → Bool}
  {revoke : RefreshToken → RefreshToken}

/-- Which tokens a statement selects can be told from their ids. -/
theorem exists_selects (h : TokenIDs s.store) (p : RefreshToken → Bool) :
    ∃ q : Rotation.Item → Bool, ∀ token ∈ s.store.tokens, q (s.item token) = p token := by
  refine ⟨fun item => s.store.tokens.any fun token => token.id = item.id ∧ p token, ?_⟩
  intro token htoken
  rw [Bool.eq_iff_iff, List.any_eq_true]
  constructor
  · rintro ⟨other, hother, heq⟩
    obtain ⟨hid, hp⟩ := of_decide_eq_true heq
    rwa [eq_of_key h.unique hother htoken hid] at hp
  · intro hp
    exact ⟨token, htoken, decide_eq_true ⟨rfl, hp⟩⟩

/-- Revoking retires the items of the revoked tokens. -/
theorem rotation_revokeWhere {q : Rotation.Item → Bool}
    (hq : ∀ token ∈ s.store.tokens, q (s.item token) = p token)
    (hrevoke : ∀ token, (revoke token).id = token.id ∧ (revoke token).revokedAt.isSome) :
    { s with store := revokeWhere p revoke s.store }.rotation =
      { s.rotation with items := Rotation.retireWhere q s.rotation.items } := by
  have hitems : (revokeWhere p revoke s.store).tokens.map s.item = Rotation.retireWhere q
      (s.store.tokens.map s.item) := by
    rw [revokeWhere, updateWhere, Rotation.retireWhere, updateWhere, List.map_map, List.map_map]
    apply List.map_congr_left
    intro token htoken
    obtain ⟨hid, hsome⟩ := hrevoke token
    simp only [Function.comp_apply, hq token htoken]
    cases hnone : token.revokedAt.isNone <;> cases hp : p token <;> simp
      [ChainSystem.item, hid, hsome, hnone]
  exact congrArg (fun items => (⟨items, s.store.nextTokenID, s.exchanged⟩ : Rotation.State)) hitems

/-- A new token is a new live item, in the chain it was given. -/
theorem rotation_insert (h : TokenIDs s.store) {userID chain : Nat} {tokenHash : String}
    {expiresAt : Time} {exchanged : List Nat}
    (hinsert : insertRefreshToken userID tokenHash expiresAt s.store = .ok store') :
    (⟨store', Function.update s.chain s.store.nextTokenID chain, exchanged⟩ : ChainSystem).rotation =
      ⟨s.rotation.items ++ [⟨s.store.nextTokenID, chain, true⟩], s.store.nextTokenID + 1,
        exchanged⟩ := by
  obtain rfl := insertRefreshToken_ok hinsert
  have hold : ∀ token ∈ s.store.tokens,
      (⟨token.id, Function.update s.chain s.store.nextTokenID chain token.id,
        token.revokedAt.isNone⟩ : Rotation.Item) =
        s.item token := by
    intro token htoken
    rw [Function.update_of_ne (h.fresh token htoken).ne]
    rfl
  simp only [ChainSystem.rotation, List.map_append, List.map_cons, List.map_nil]
  congr 2
  · exact List.map_congr_left hold
  · simp [ChainSystem.item]

end Abstraction

/-! ## Runs -/

section Steps
variable {hashToken : String → String} {s t : ChainSystem} {e : SessionEvent}

/-- A call that revokes tokens and touches no other column of theirs. -/
theorem retires (h : TokenIDs s.store) {p : RefreshToken → Bool} {revoke : RefreshToken → RefreshToken}
    (hrevoke : ∀ token, (revoke token).id = token.id ∧ (revoke token).revokedAt.isSome) :
    TokenIDs (revokeWhere p revoke s.store) ∧
      Path Rotation.State.step Always s.rotation
        { s with store := revokeWhere p revoke s.store }.rotation := by
  refine ⟨h.revokeWhere fun token => (hrevoke token).1, ?_⟩
  obtain ⟨q, hq⟩ := exists_selects h p
  rw [rotation_revokeWhere hq hrevoke]
  exact .snoc (.retire q) .refl trivial rfl

/-- An exchange: the transaction revoked an unrevoked token and stored a new one. -/
theorem refreshSession_ok {store store' : SessionStore} {stored : RefreshToken}
    {raw newHash : String} {now newExpires : Time}
    (hfind : findRefreshable hashToken raw now store = .ok stored)
    (h : refreshSession hashToken raw now newHash newExpires store = .ok store') :
    (∃ token ∈ store.tokens, token.id = stored.id ∧ token.revokedAt.isNone) ∧
      insertRefreshToken stored.userID newHash newExpires
        (revokeWhere (·.id = stored.id)
          (fun token => { token with revokedAt := some now, lastUsedAt := some now }) store) =
          .ok store' := by
  obtain ⟨found, hfound, h⟩ := bind_eq_ok h
  obtain rfl := Except.ok.inj (hfind.symm.trans hfound)
  dsimp only at h
  split at h
  · cases h
  · rename_i hne
    refine ⟨?_, h⟩
    obtain ⟨token, htoken, hsel⟩ : ∃ token ∈ store.tokens,
        (token.revokedAt.isNone && decide (token.id = stored.id)) = true := by
      by_contra hnone
      apply hne
      rw [affected_eq_zero]
      intro token htoken
      exact Bool.eq_false_iff.2 fun hsel => hnone ⟨token, htoken, hsel⟩
    obtain ⟨hnone, hid⟩ := (Bool.and_eq_true _ _).mp hsel
    exact ⟨token, htoken, of_decide_eq_true hid, hnone⟩

/-- An unrevoked token is found among the items, in its chain. -/
theorem find_item {token : RefreshToken} {id : Nat} (htoken : token ∈ s.store.tokens)
    (hid : token.id = id) (hnone : token.revokedAt.isNone) :
    ∃ found, (s.rotation.items.find? fun item => item.id = id ∧ item.live) = some found ∧
    found.chain = s.chain id := by
  have hsome : (s.rotation.items.find? fun item => item.id = id ∧ item.live).isSome := by
    rw [List.find?_isSome]
    exact ⟨s.item token, List.mem_map_of_mem htoken, decide_eq_true ⟨hid, hnone⟩⟩
  obtain ⟨found, hfound⟩ := Option.isSome_iff_exists.1 hsome
  obtain ⟨other, -, rfl⟩ := List.mem_map.1 (List.mem_of_find?_eq_some hfound)
  have hother : other.id = id := by
    have := List.find?_some hfound
    exact (of_decide_eq_true this).1
  exact ⟨_, hfound, congrArg s.chain hother⟩

/-- Every event is a run of the rotation. -/
theorem step_rotation (h : TokenIDs s.store) (hstep : s.step hashToken e = some t) :
    TokenIDs t.store ∧ Path Rotation.State.step Always s.rotation t.rotation := by
  cases e with
  | login userID tokenHash expiresAt =>
    simp only [ChainSystem.step] at hstep
    split at hstep
    · cases hstep
      exact ⟨h, .refl⟩
    · rename_i store' hinsert
      cases hstep
      refine ⟨h.insert hinsert, ?_⟩
      rw [rotation_insert h hinsert]
      exact .snoc .start .refl trivial rfl
  | refresh raw now newHash newExpires =>
    simp only [ChainSystem.step] at hstep
    split at hstep
    · rename_i stored store' hfind hrefresh
      cases hstep
      obtain ⟨⟨token, htoken, hid, hnone⟩, hinsert⟩ := refreshSession_ok hfind hrefresh
      have hrevoke := @rotation_revokeWhere s (·.id = stored.id)
        (fun token => { token with revokedAt := some now, lastUsedAt := some now }) (·.id = stored.id)
        (fun _ _ => rfl) fun _ => ⟨rfl, rfl⟩
      have hids : TokenIDs (revokeWhere (·.id = stored.id)
          (fun token => { token with revokedAt := some now, lastUsedAt := some now }) s.store) :=
            h.revokeWhere fun _ => rfl
      refine ⟨hids.insert hinsert, ?_⟩
      have hinsert :=
        @rotation_insert ⟨_, s.chain, s.exchanged⟩ _ hids _ (s.chain stored.id) _ _
          (s.exchanged ++ [stored.id]) hinsert
      -- one exchange: the predecessor is revoked and the successor joins its chain
      refine .snoc (.exchange stored.id) .refl trivial ?_
      obtain ⟨found, hfound, hchain⟩ := find_item htoken hid hnone
      refine Eq.trans ?_ (congrArg some hinsert.symm)
      simp only [Rotation.State.step, hfound, Option.map_some, hchain]
      exact congrArg (fun items =>
        some (⟨items ++ [⟨s.store.nextTokenID, s.chain stored.id, true⟩], s.store.nextTokenID + 1,
        s.exchanged ++ [stored.id]⟩ : Rotation.State)) (congrArg Rotation.State.items hrevoke).symm
    · cases hstep
      exact ⟨h, .refl⟩
  | logout raw now =>
    cases hstep
    -- an empty token changes nothing
    by_cases hraw : GoStrings.trimSpace raw = ""
    · have hsame : logout hashToken raw now s.store = s.store := if_pos hraw
      rw [hsame]
      exact ⟨h, .refl⟩
    · have hrevoke : logout hashToken raw now s.store = _ := if_neg hraw
      rw [hrevoke]
      exact retires h fun _ => ⟨rfl, rfl⟩
  | changePassword userID hash now =>
    cases hstep
    exact @retires { s with store := updateUser userID ({ · with password := hash }) s.store }
      ⟨h.unique, h.fresh⟩ _ _
      fun _ => ⟨rfl, rfl⟩
  | changeUserStatus userID status now =>
    simp only [ChainSystem.step] at hstep
    split at hstep
    · cases hstep
      exact ⟨h, .refl⟩
    · rename_i store' hchange
      cases hstep
      unfold changeUserStatus at hchange
      split at hchange
      · cases hchange
      split at hchange
      · cases hchange
      obtain rfl := Except.ok.inj hchange
      have hids : TokenIDs (updateUser userID ({ · with status := status }) s.store) :=
        ⟨h.unique, h.fresh⟩
      split
      · exact @retires { s with store := updateUser userID ({ · with status := status }) s.store }
          hids _ _
          fun _ => ⟨rfl, rfl⟩
      · exact ⟨hids, .refl⟩

end Steps

/-! ## What a run keeps -/

section Runs
variable {hashToken : String → String} {s t : ChainSystem}

theorem ChainSystem.Initial.tokenIDs (h : s.Initial) : TokenIDs s.store :=
  ⟨by simp [h.tokens], by simp [h.tokens]⟩

theorem ChainSystem.Initial.rotation_eq (h : s.Initial) :
    s.rotation = Rotation.State.empty s.store.nextTokenID := by
  simp [ChainSystem.rotation, Rotation.State.empty, h.tokens, h.exchanged]

theorem path_tokenIDs (h : TokenIDs s.store)
    (hpath : Path (ChainSystem.step hashToken) Always s t) : TokenIDs t.store :=
  hpath.invariant (TokenIDs ·.store) (fun _ _ _ h _ hstep => (step_rotation h hstep).1) h

theorem path_rotation (h : TokenIDs s.store) (hpath : Path (ChainSystem.step hashToken) Always s t) :
    Path Rotation.State.step Always s.rotation t.rotation :=
  hpath.simulates (TokenIDs ·.store) ChainSystem.rotation
    (fun _ _ _ h _ hstep => step_rotation h hstep) h

/-- The unrevoked tokens of a chain are its live items. -/
theorem mem_unrevoked {chain : Nat} {token : RefreshToken} :
    token ∈ s.unrevoked chain ↔ token ∈ s.store.tokens ∧ (s.item token).chain = chain ∧
    (s.item token).live = true := by
  simp [ChainSystem.unrevoked, ChainSystem.item]

theorem unrevoked_length (hids : TokenIDs s.store) (hinv : Rotation.RotationInv s.rotation)
    (chain : Nat) : (s.unrevoked chain).length ≤ 1 := by
  have hnodup : (s.unrevoked chain).Nodup := (hids.unique.of_map _).filter _
  match hlist : s.unrevoked chain with
  | [] => simp
  | [_] => simp
  | x :: y :: rest =>
    obtain ⟨hx, hxchain, hxlive⟩ := mem_unrevoked.1 (hlist ▸ List.mem_cons_self : x ∈ s.unrevoked chain)
    obtain ⟨hy, hychain, hylive⟩ :=
      mem_unrevoked.1 (hlist ▸ List.mem_cons_of_mem _ List.mem_cons_self : y ∈ s.unrevoked chain)
    have hid : x.id = y.id :=
      hinv.one _ (List.mem_map_of_mem hx) _ (List.mem_map_of_mem hy)
        (hxchain.trans hychain.symm) hxlive hylive
    rw [hlist, eq_of_key hids.unique hx hy hid] at hnodup
    simp at hnodup

theorem dead_of_unrevoked {chain : Nat} (hin : ∃ token ∈ s.store.tokens, s.chain token.id = chain)
    (hnone : s.unrevoked chain = []) :
    Rotation.Dead s.rotation chain := by
  obtain ⟨token, htoken, hchain⟩ := hin
  refine ⟨⟨s.item token, List.mem_map_of_mem htoken, hchain⟩, ?_⟩
  intro item hitem hitemchain
  obtain ⟨other, hother, rfl⟩ := List.mem_map.1 hitem
  by_contra hlive
  have : other ∈ s.unrevoked chain := mem_unrevoked.2 ⟨hother, hitemchain, by simpa using hlive⟩
  rw [hnone] at this
  cases this

/-- A chain has at most one unrevoked token, a token is exchanged at most once, and a
chain whose tokens are all revoked gets no other. -/
theorem refresh_chains (hashToken : String → String) (s t u : ChainSystem) (h : s.Initial)
    (ht : Path (ChainSystem.step hashToken) Always s t)
    (hu : Path (ChainSystem.step hashToken) Always t u) :
    (∀ chain, (t.unrevoked chain).length ≤ 1) ∧ t.exchanged.Nodup ∧
      ∀ chain, (∃ token ∈ t.store.tokens, t.chain token.id = chain) → t.unrevoked chain = [] →
        u.unrevoked chain = [] := by
  have htids := path_tokenIDs h.tokenIDs ht
  have hinv : Rotation.RotationInv t.rotation :=
    Rotation.path_inv (h.rotation_eq ▸ Rotation.inv_empty _) (path_rotation h.tokenIDs ht)
  refine ⟨unrevoked_length htids hinv, hinv.once, ?_⟩
  intro chain hin hnone
  have hdead := Rotation.path_dead hinv (path_rotation htids hu) (dead_of_unrevoked hin hnone)
  rw [List.eq_nil_iff_forall_not_mem]
  intro token htoken
  obtain ⟨hmem, hchain, hlive⟩ := mem_unrevoked.1 htoken
  rw [hdead.2 _ (List.mem_map_of_mem hmem) hchain] at hlive
  cases hlive

end Runs

/-! ### A run -/

def sampleChains : ChainSystem :=
  ⟨⟨[⟨1, "ann", "ann@example.com", "", "user", "active", false⟩], [], 1⟩, fun _ => 0, []⟩

/-- A login whose token is exchanged and presented once more, and a second login. The
first chain is logged out. -/
def sampleSessions : List SessionEvent :=
  [.login 1 "#a" (midnight 9), .refresh "a" (midnight 1) "#b" (midnight 9),
   .refresh "a" (midnight 1) "#c" (midnight 9),
    .login 1 "#x" (midnight 9), .logout "b" (midnight 2)]

/-- Afterwards only the second chain can be exchanged. -/
theorem refresh_chains_sample :
    ∃ t u, exec (ChainSystem.step ("#" ++ ·)) Always sampleChains sampleSessions = some t ∧
      exec (ChainSystem.step ("#" ++ ·)) Always t
        [.refresh "b" (midnight 3) "#d" (midnight 9), .refresh "x" (midnight 3) "#y" (midnight 9)] =
          some u ∧
      t.exchanged = [1] ∧ u.exchanged = [1, 3] ∧ (t.unrevoked 1).length = 0 ∧
        (u.unrevoked 3).length = 1 ∧
      (∀ chain, (t.unrevoked chain).length ≤ 1) ∧ t.exchanged.Nodup ∧
      ∀ chain, (∃ token ∈ t.store.tokens, t.chain token.id = chain) → t.unrevoked chain = [] →
        u.unrevoked chain = [] := by
  have hrun : (exec (ChainSystem.step ("#" ++ ·)) Always sampleChains sampleSessions).any (fun t =>
      (exec (ChainSystem.step ("#" ++ ·)) Always t
        [.refresh "b" (midnight 3) "#d" (midnight 9), .refresh "x" (midnight 3) "#y"
         (midnight 9)]).any fun u =>
          t.exchanged = [1] ∧ u.exchanged = [1, 3] ∧ (t.unrevoked 1).length = 0 ∧
            (u.unrevoked 3).length = 1) = true := by
    decide +kernel
  obtain ⟨t, ht, hrun⟩ := (Option.any_eq_true _ _).1 hrun
  obtain ⟨u, hu, hrun⟩ := (Option.any_eq_true _ _).1 hrun
  obtain ⟨h₁, h₂, h₃, h₄⟩ := of_decide_eq_true hrun
  exact ⟨t, u, ht, hu, h₁, h₂, h₃, h₄,
    refresh_chains _ sampleChains t u ⟨rfl, rfl⟩ (Path.of_exec ht) (Path.of_exec hu)⟩

end Subdux
