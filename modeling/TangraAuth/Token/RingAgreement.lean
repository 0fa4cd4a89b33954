import TangraAuth.Token.Rings
import TangraAuth.Token.SingleActive

/-!
Contract: when the rings over one table agree.

Owns: that rings which never rotate keep one common key, that a ring alone always
ends a rotation with a key, and the two rings that part when one of them rotates.

Does not own: the model of the rings.
-/

namespace TangraAuth.Token.Rings

open Library

/-! ### The active key of a ring -/

/-- The ring's only active key, ready to sign. -/
structure Heads (ks : List RingKey) (kid : KeyID) (pk : PublicKey) : Prop where
  unique : UniqueKey (fun key : RingKey => key.kid) ks
  held : ∃ key ∈ ks, key.kid = kid ∧ key.publicKey = pk ∧ key.state = .active ∧ key.priv = true
  only : ∀ key ∈ ks, key.state = .active → key.kid = kid

theorem activeKey_isSome {ks : List RingKey} {key : RingKey} (mem : key ∈ ks)
    (active : key.state = .active) : ∃ found, activeKey ks = some found := by
  unfold activeKey
  -- A key that was found is only replaced by another one.
  have stays : ∀ (rest : List RingKey) (held : RingKey), ∃ found, rest.foldl
      (fun best key =>
        if key.state = .active ∧ best.all fun found => decide (found.createdAt < key.createdAt)
        then some key else best) (some held) = some found := by
    intro rest
    induction rest with
    | nil => exact fun held => ⟨held, rfl⟩
    | cons other rest ih =>
      intro held
      rw [List.foldl_cons]
      split_ifs
      · exact ih other
      · exact ih held
  induction ks with
  | nil => cases mem
  | cons first rest ih =>
    rw [List.foldl_cons]
    by_cases firstActive : first.state = .active
    · rw [if_pos ⟨firstActive, rfl⟩]
      exact stays rest first
    grind

variable {cfg : Config} {store : List SigningKey}

section

variable {ks : List RingKey} {kid : KeyID} {pk : PublicKey} (heads : Heads ks kid pk)

include heads

theorem Heads.activeKey_eq : ∃ key, activeKey ks = some key ∧ key.kid = kid ∧ key.publicKey = pk
      ∧ key.priv = true := by
  obtain ⟨key, mem, isKid, isPublic, active, opened⟩ := heads.held
  obtain ⟨found, isFound⟩ := activeKey_isSome mem active
  obtain ⟨foundMem, foundActive⟩ := activeKey_eq_some isFound
  have sameKid : found.kid = key.kid := by
    rw [isKid]
    exact heads.only found foundMem foundActive
  have same : found = key := eq_of_uniqueKey heads.unique foundMem mem sameKid
  exact ⟨key, same ▸ isFound, isKid, isPublic, opened⟩

theorem Heads.issues (cfg : Config) (store : List SigningKey) (now : Int) (req : Request) :
    ∃ tok, issue cfg ⟨store, ks⟩ now req = .ok tok := by
  obtain ⟨key, isActive, -, -, opened⟩ := heads.activeKey_eq
  refine ⟨⟨key.kid, key.publicKey, .access (accessClaims cfg now req)⟩, ?_⟩
  simp [issue, isActive, opened]

/-- Whatever the ring signs is signed with that key. -/
theorem Heads.signed {now : Int} {req : SignRequest}
    {tok : SignedToken} (isSigned : signWith cfg ⟨store, ks⟩ now req = .ok tok) :
    tok.kid = kid ∧ tok.signer = pk := by
  obtain ⟨key, isActive, isKid, isPublic, opened⟩ := heads.activeKey_eq
  cases req with
  | access req =>
    simp only [signWith, issue, isActive, opened, Bool.not_true, Bool.false_eq_true,
      if_false] at isSigned
    cases isSigned
    exact ⟨isKid, isPublic⟩
  | enrollment tid spiffePaths ttl =>
    cases tid with
    | none => cases isSigned
    | some tn =>
      simp only [signWith, issueEnrollment, isActive, opened, Bool.not_true,
        Bool.false_eq_true, if_false] at isSigned
      grind

theorem Heads.published (store : List SigningKey) : Keys.publicKey ⟨store, ks⟩ kid = some pk := by
  grind [held, publicKey_of_mem, unique]

theorem Heads.shuffle {order : List RingKey} (same : order.Perm ks) : Heads order kid pk where
  unique := (same.map _).nodup_iff.mpr heads.unique
  held := by
    obtain ⟨key, mem, isKey⟩ := heads.held
    exact ⟨key, same.mem_iff.mpr mem, isKey⟩
  only := fun key mem => heads.only key (same.mem_iff.mp mem)

theorem Heads.retire {other : KeyID} (differs : other ≠ kid)
    (now : Int) {st : KeyState} (notActive : st ≠ .active) :
    Heads (updateWhere (fun key => key.kid == other) (RingKey.changed now st) ks) kid pk where
  unique := uniqueKey_updateWhere (changed_kid now st) heads.unique
  held := by
    obtain ⟨key, mem, isKid, isKey⟩ := heads.held
    refine ⟨key, mem_updateWhere.mpr ⟨key, mem, ?_⟩, isKid, isKey⟩
    rw [if_neg]
    simpa [isKid] using fun same : kid = other => differs same.symm
  only := by
    intro key mem active
    obtain ⟨old, oldMem, ⟨-, rfl⟩ | ⟨-, rfl⟩⟩ := of_mem_updateWhere mem
    · rw [changed_state] at active
      exact absurd active notActive
    · exact heads.only key oldMem active

theorem Heads.drop {removed : List KeyID} (spared : kid ∉ removed) :
    Heads (ks.filter fun key => key.kid ∉ removed) kid pk where
  unique := uniqueKey_filter heads.unique _
  held := by
    obtain ⟨key, mem, isKid, isKey⟩ := heads.held
    refine ⟨key, List.mem_filter.mpr ⟨mem, decide_eq_true ?_⟩, isKid, isKey⟩
    rw [isKid]
    exact spared
  only := fun key mem => heads.only key (List.mem_of_mem_filter mem)

end

/-! ### One turn of a sweep -/

/-- A sweep that will not touch the key. -/
structure Passes (kid : KeyID) (rest : List RingKey) (removed : List KeyID) : Prop where
  active : ∀ key ∈ rest, key.kid = kid → key.state = .active
  spared : kid ∉ removed

theorem Heads.passes {ks : List RingKey} {kid : KeyID} {pk : PublicKey}
    (heads : Heads ks kid pk) : Passes kid ks [] where
  active := by
    intro key mem sameKid
    obtain ⟨head, headMember, isKid, -, isActive, -⟩ := heads.held
    rw [eq_of_uniqueKey heads.unique mem headMember (sameKid.trans isKid.symm)]
    exact isActive
  spared := List.not_mem_nil

theorem sweepTurn_spec {cfg : Config} {now : Int} {key : RingKey} {rest : List RingKey}
    {removed : List KeyID} {rotates : Bool} {ks : Keys} {kid : KeyID} {pk : PublicKey}
    (heads : Heads ks.ring kid pk) (passes : Passes kid (key :: rest) removed) :
    ∃ nextKeys nextRemoved, sweepTurn cfg now key rest removed rotates ks
          = (nextKeys, .sweeping now rest nextRemoved (rotates || rotationDue cfg now [key]))
        ∧ Heads nextKeys.ring kid pk ∧ Passes kid rest nextRemoved
        ∧ Fewer nextKeys.store ks.store := by
  have passesRest : Passes kid rest removed :=
    ⟨fun later mem => passes.active later (List.mem_cons_of_mem _ mem), passes.spared⟩
  have differs : key.state ≠ .active → key.kid ≠ kid := fun notActive same =>
    notActive (passes.active key List.mem_cons_self same)
  cases isState : key.state with
  | active =>
    refine ⟨ks, removed, ?_, heads, passesRest, Fewer.refl _⟩
    simp [sweepTurn, isState, rotationDue]
  | retiring =>
    have other := differs (by rw [isState]; decide)
    by_cases isDue : due now cfg.retiringPeriod key.retiringAt = true
    · refine ⟨ks.setState now key.kid .retired, removed, ?_,
        heads.retire other now (by decide), passesRest, setState_fewer (by decide)⟩
      simp [sweepTurn, isState, rotationDue, isDue]
    · refine ⟨ks, removed, ?_, heads, passesRest, Fewer.refl _⟩
      simp [sweepTurn, isState, rotationDue, isDue]
  | retired =>
    have other := differs (by rw [isState]; decide)
    by_cases isDue : due now cfg.keepRetired key.retiredAt = true
    · refine ⟨{ ks with store := removeSigningKey key.kid ks.store }, key.kid :: removed, ?_,
        heads, ⟨passesRest.active, ?_⟩, ?_⟩
      · simp [sweepTurn, isState, rotationDue, isDue]
      · rw [List.mem_cons, not_or]
        exact ⟨fun same => other same.symm, passes.spared⟩
      grind [Fewer, removeSigningKey]
    · refine ⟨ks, removed, ?_, heads, passesRest, Fewer.refl _⟩
      simp [sweepTurn, isState, rotationDue, isDue]

/-! ### Rings that never rotate -/

/-- The ring heads the common key and is at most in a sweep that will not rotate. -/
structure CommonRing (cfg : Config) (kid : KeyID) (pk : PublicKey) (ring : Ring) :
    Prop where
  heads : Heads ring.keys kid pk
  calm : match ring.point with
    | .idle => True
    | .sweeping now rest removed rotates =>
      Passes kid rest removed ∧ rotates = false ∧ rotationDue cfg now rest = false
    | .due | .retiring _ _ _ _ _ | .restoring _ _ => False

variable {ring : Ring}

theorem CommonRing.advance {kid : KeyID} {pk : PublicKey}
    (common : CommonRing cfg kid pk ring) {res : Keys × Point}
    (taken : advanceRing cfg ⟨store, ring.keys⟩ ring.point = some res) :
    CommonRing cfg kid pk ⟨res.1.ring, res.2⟩ := by
  obtain ⟨heads, calm⟩ := common
  cases isPoint : ring.point with
  | idle =>
    rw [isPoint] at taken
    cases taken
  | sweeping now rest removed rotates =>
    rw [isPoint] at taken calm
    obtain ⟨passes, rfl, notDue⟩ := calm
    cases rest with
    | nil =>
      cases taken
      exact ⟨heads.drop passes.spared, True.intro⟩
    | cons key rest =>
      have split : rotationDue cfg now [key] = false ∧ rotationDue cfg now rest = false := by
        simpa [rotationDue] using notDue
      obtain ⟨nextKeys, nextRemoved, isResult, nextHeads, nextPasses, -⟩ :=
        @sweepTurn_spec cfg now key rest removed false ⟨store, ring.keys⟩ kid pk heads passes
      simp only [advanceRing, isResult, split.1, Bool.or_self] at taken
      cases taken
      exact ⟨nextHeads, nextPasses, rfl, split.2⟩
  | due | retiring now newKid newKey rest retired | restoring now rest =>
    rw [isPoint] at calm
    exact calm.elim

/-! ### A ring alone -/

/-- No row is active but the key's. -/
def Rowed (store : List SigningKey) (kid : KeyID) : Prop :=
  ∀ row ∈ store, row.state = .active → row.kid = kid

/-- A rotation has still to meet the active key, or has retired it. -/
inductive Retires (store : List SigningKey) (ks rest : List RingKey) : Prop where
  | ahead (kid : KeyID) (pk : PublicKey) (heads : Heads ks kid pk)
      (rowed : Rowed store kid) (present : ∀ key ∈ rest, key ∈ ks)
      (meets : ∃ key ∈ rest, key.state = .active)
  | behind (ring : ∀ key ∈ ks, key.state ≠ .active) (rs : ∀ row ∈ store, row.state ≠ .active)
      (others : ∀ key ∈ rest, key.state ≠ .active)

/-- A ring alone heads a key between its operations, and a rotation always ends in one. -/
def Solo (store : List SigningKey) (ring : Ring) : Prop :=
  match ring.point with
  | .idle | .due => ∃ kid pk, Heads ring.keys kid pk ∧ Rowed store kid
  | .sweeping _ rest removed _ =>
    ∃ kid pk, Heads ring.keys kid pk ∧ Rowed store kid ∧ Passes kid rest removed
  | .retiring _ kid _ rest _ =>
    UniqueKey (fun key : RingKey => key.kid) ring.keys ∧ (∀ key ∈ ring.keys, key.kid ≠ kid)
      ∧ UniqueKey (fun key : RingKey => key.kid) rest ∧ Retires store ring.keys rest
  | .restoring _ _ => False

theorem Solo.heads (solo : Solo store ring) (unlocked : ring.unlocked = true) :
    ∃ kid pk, Heads ring.keys kid pk ∧ Rowed store kid := by
  unfold Solo at solo
  grind [Ring.unlocked]

/-- The rotation meets a key: the active one is retired, the others are passed. -/
theorem Retires.turn {store : List SigningKey} {ks rest : List RingKey} {old : RingKey}
    {now : Int} (unique : UniqueKey (fun key : RingKey => key.kid) (old :: rest))
    (retires : Retires store ks (old :: rest)) :
    if old.state = .active then
      Retires (Keys.setState ⟨store, ks⟩ now old.kid .retiring).store
        (Keys.setState ⟨store, ks⟩ now old.kid .retiring).ring rest
    else Retires store ks rest := by
  obtain ⟨fresh, -⟩ := List.nodup_cons.mp unique
  cases retires with
  | ahead kid pk heads rowed present meets =>
    have sameKey : ∀ key ∈ old :: rest, ∀ other ∈ old :: rest, key.state = .active →
        other.state = .active → key = other := by
      intro key mem other otherMem active otherActive
      apply eq_of_uniqueKey heads.unique (present key mem) (present other otherMem)
      rw [heads.only key (present key mem) active,
        heads.only other (present other otherMem) otherActive]
    split_ifs with active
    · have isKid : old.kid = kid := heads.only old (present old List.mem_cons_self) active
      refine Retires.behind ?_ ?_ ?_
      · grind [of_mem_updateWhere, changed_state, Heads.only, Keys.setState]
      · intro row mem isActive
        obtain ⟨pre, beforeMember, ⟨-, rfl⟩ | ⟨unmatched, rfl⟩⟩ := of_mem_updateWhere mem
        · cases isActive
        grind [Rowed]
      grind
    · refine Retires.ahead kid pk heads rowed
        (fun key mem => present key (List.mem_cons_of_mem _ mem)) ?_
      grind
  | behind ring rs others =>
    rw [if_neg (others old List.mem_cons_self)]
    exact Retires.behind ring rs fun key mem =>
      others key (List.mem_cons_of_mem _ mem)

theorem Solo.advance (solo : Solo store ring) {res : Keys × Point}
    (taken : advanceRing cfg ⟨store, ring.keys⟩ ring.point = some res) :
    Solo res.1.store ⟨res.1.ring, res.2⟩ := by
  unfold Solo at solo
  cases isPoint : ring.point with
  | idle | due =>
    rw [isPoint] at taken
    cases taken
  | sweeping now rest removed rotates =>
    rw [isPoint] at taken solo
    obtain ⟨kid, pk, heads, rowed, passes⟩ := solo
    cases rest with
    | nil =>
      cases taken
      cases rotates <;> exact ⟨kid, pk, heads.drop passes.spared, rowed⟩
    | cons key rest =>
      obtain ⟨nextKeys, nextRemoved, isResult, nextHeads, nextPasses, fewer⟩ :=
        @sweepTurn_spec cfg now key rest removed rotates ⟨store, ring.keys⟩ kid pk heads passes
      simp only [advanceRing, isResult] at taken
      grind [Solo, Rowed, Fewer]
  | retiring now kid pk rest retired =>
    rw [isPoint] at taken solo
    obtain ⟨unique, unused, uniqueRest, retires⟩ := solo
    cases rest with
    | nil =>
      cases retires with
      | ahead _ _ _ _ _ meets =>
        obtain ⟨key, mem, -⟩ := meets
        cases mem
      | behind noneInRing noneStored _ =>
        have allowed : insertRefused kid store = false := by
          simp only [insertRefused, otherActive, List.any_eq_false, Bool.and_eq_true,
            decide_eq_true_eq, not_and]
          exact fun row mem isActive => absurd isActive (noneStored row mem)
        simp only [advanceRing, allowed, Bool.false_eq_true, if_false] at taken
        cases taken
        refine ⟨kid, pk, ⟨uniqueKey_append_singleton unique unused, ?_, ?_⟩, ?_⟩
        · exact ⟨_, List.mem_append_right _ (List.mem_singleton.mpr rfl), rfl, rfl, rfl, rfl⟩
        · intro key mem active
          rcases List.mem_append.mp mem with inRing | isNew
          · exact absurd active (noneInRing key inRing)
          · rw [List.mem_singleton.mp isNew]
            rfl
        · intro row mem active
          rcases List.mem_append.mp mem with inStore | isNew
          · exact absurd active (noneStored row inStore)
          · rw [List.mem_singleton.mp isNew]
            rfl
    | cons old rest =>
      have turned := @Retires.turn store ring.keys rest old now uniqueRest retires
      have uniqueLater := (List.nodup_cons.mp uniqueRest).2
      simp only [advanceRing] at taken
      split_ifs at turned taken with active
      · grind [uniqueKey_updateWhere, changed_kid, Solo, UniqueKey, Keys.setState]
      grind [Solo, UniqueKey]
  | restoring now rest =>
    rw [isPoint] at solo
    exact solo.elim

/-! ### The system -/

/-- The rings that were loaded so far hold the active row's key. -/
structure Start (st : State) : Prop where
  unique : UniqueKey SigningKey.kid st.store
  single : Single st.store
  rings : st.rings = [] ∨ ∃ kid pk,
    (∃ row ∈ st.store, row.kid = kid ∧ row.publicKey = pk ∧ row.state = .active)
      ∧ ∀ ring ∈ st.rings, Heads ring.keys kid pk ∧ ring.point = .idle

structure CommonState (kid : KeyID) (pk : PublicKey) (st : State) : Prop where
  several : st.rings.length ≠ 1
  rings : ∀ ring ∈ st.rings, CommonRing st.config kid pk ring
  signed : ∀ e ∈ st.tokens, e.2.kid = kid ∧ e.2.signer = pk

structure SoloState (ring : Ring) (st : State) : Prop where
  alone : st.rings = [ring]
  solo : Solo st.store ring
  signers : ∀ e ∈ st.tokens, e.1 = 0

inductive Holds (st : State) : Prop where
  | loading (waiting : st.serving = false) (tokens : st.tokens = []) (init : Start st)
  | common (serving : st.serving = true) (kid : KeyID) (pk : PublicKey)
      (common : CommonState kid pk st)
  | solo (serving : st.serving = true) (ring : Ring) (solo : SoloState ring st)

variable {next : State} {move : Move}

section

variable {kid : KeyID} {pk : PublicKey} {st : State}

theorem Start.serve (init : Start st) (tokens : st.tokens = []) :
    Holds { st with serving := true } := by
  have signed : ∀ e ∈ st.tokens, False := by
    rw [tokens]
    exact fun _ mem => (nomatch mem)
  rcases init.rings with none | ⟨kid, pk, ⟨row, rowMem, isKid, -, rowActive⟩, heads⟩
  · refine Holds.common rfl 0 0 ⟨?_, ?_, fun e mem => (signed e mem).elim⟩
    · simp [none]
    · intro ring mem
      rw [none] at mem
      cases mem
  · by_cases isOne : st.rings.length = 1
    · obtain ⟨ring, alone⟩ := List.length_eq_one_iff.mp isOne
      obtain ⟨ringHeads, idle⟩ := heads ring (by rw [alone]; exact List.mem_singleton.mpr rfl)
      refine Holds.solo rfl ring ⟨alone, ?_, fun e mem => (signed e mem).elim⟩
      unfold Solo
      rw [idle]
      refine ⟨kid, pk, ringHeads, ?_⟩
      intro other mem active
      rw [← isKid]
      exact init.single other mem row rowMem active rowActive
    · refine Holds.common rfl kid pk
        ⟨isOne, ?_, fun e mem => (signed e mem).elim⟩
      intro ring mem
      obtain ⟨ringHeads, idle⟩ := heads ring mem
      refine ⟨ringHeads, ?_⟩
      rw [idle]
      trivial

/-- Loading makes the ring head the active row's key, and makes that row where there is none. -/
theorem Start.load (init : Start st) (fresh : st.fresh kid = true)
    (taken : loadRing st kid pk = some next) :
    Start next ∧ next.serving = st.serving ∧ next.tokens = st.tokens := by
  have unusedStore : ∀ row ∈ st.store, row.kid ≠ kid := by
    simp only [State.fresh, Bool.and_eq_true, List.all_eq_true, bne_iff_ne] at fresh
    exact fresh.2
  have uniqueLoaded : UniqueKey (fun key : RingKey => key.kid) (st.store.map loaded) := by
    unfold UniqueKey
    rw [List.map_map]
    exact init.unique
  have opened : (st.store.any fun key =>
      decide (key.state ≠ .retired) && noFaults (.openKey key.kid)) = false := by
    simp [noFaults]
  by_cases hasActive : (st.store.any fun key => decide (key.state = .active)) = true
  · obtain ⟨row, rowMem, active⟩ := List.any_eq_true.mp hasActive
    have rowActive : row.state = .active := of_decide_eq_true active
    have isLoad : Keys.load noFaults st.now kid pk ⟨st.store, []⟩
        = (⟨st.store, st.store.map loaded⟩, true) := by
      simp only [Keys.load, opened, hasActive, if_true]
      rfl
    simp only [loadRing, isLoad] at taken
    cases taken
    have heads : Heads (st.store.map loaded) row.kid row.publicKey := by
      refine ⟨uniqueLoaded, ⟨loaded row, List.mem_map_of_mem rowMem, rfl, rfl, rowActive, ?_⟩, ?_⟩
      · simp [loaded, rowActive]
      · intro key mem keyActive
        obtain ⟨other, otherMem, rfl⟩ := List.mem_map.mp mem
        exact init.single other otherMem row rowMem keyActive rowActive
    refine ⟨⟨init.unique, init.single, Or.inr ⟨row.kid, row.publicKey,
      ⟨row, rowMem, rfl, rfl, rowActive⟩, ?_⟩⟩, rfl, rfl⟩
    intro ring mem
    rcases List.mem_append.mp mem with old | new
    · rcases init.rings with none | ⟨oldKid, oldKey, ⟨other, otherMem, isKid, isKey, otherActive⟩,
        oldHeads⟩
      · rw [none] at old
        cases old
      · have sameKid := init.single other otherMem row rowMem otherActive rowActive
        grind [eq_of_uniqueKey, unique]
    · rw [List.mem_singleton.mp new]
      exact ⟨heads, rfl⟩
  · have noActive : ∀ row ∈ st.store, row.state ≠ .active := by
      intro row mem active
      exact hasActive (List.any_eq_true.mpr ⟨row, mem, decide_eq_true active⟩)
    have noRings : st.rings = [] := by
      rcases init.rings with none | ⟨-, -, ⟨row, rowMem, -, -, rowActive⟩, -⟩
      · exact none
      · exact absurd rowActive (noActive row rowMem)
    have idle : ∀ key ∈ st.store.map loaded, key.state ≠ .active := by
      intro key mem
      obtain ⟨row, rowMem, rfl⟩ := List.mem_map.mp mem
      exact noActive row rowMem
    have allowed : insertRefused kid st.store = false := by
      simp only [insertRefused, otherActive, List.any_eq_false, Bool.and_eq_true,
        decide_eq_true_eq, not_and]
      exact fun row mem isActive => absurd isActive (noActive row mem)
    have isLoad : Keys.load noFaults st.now kid pk ⟨st.store, []⟩
        = (Keys.insert ⟨st.store, st.store.map loaded⟩ (newKey st.now kid pk) true, true) := by
      simp only [Keys.load, opened, hasActive, Keys.rotate,
        retireActive_of_idle noFaults idle, allowed]
      rfl
    simp only [loadRing, isLoad] at taken
    cases taken
    refine ⟨⟨uniqueKey_append_singleton init.unique unusedStore, ?_, Or.inr ⟨kid, pk,
      ⟨_, List.mem_append_right _ (List.mem_singleton.mpr rfl), rfl, rfl, rfl⟩, ?_⟩⟩, rfl, rfl⟩
    · grind [Single.insert]
    · intro ring mem
      simp only [noRings, List.nil_append, List.mem_singleton] at mem
      rw [mem]
      refine ⟨⟨uniqueKey_append_singleton uniqueLoaded ?_, ?_, ?_⟩, rfl⟩
      · intro key keyMem
        obtain ⟨row, rowMem, rfl⟩ := List.mem_map.mp keyMem
        exact unusedStore row rowMem
      · exact ⟨_, List.mem_append_right _ (List.mem_singleton.mpr rfl), rfl, rfl, rfl, rfl⟩
      · intro key keyMem active
        rcases List.mem_append.mp keyMem with inRing | isNew
        · exact absurd active (idle key inRing)
        · rw [List.mem_singleton.mp isNew]
          rfl

theorem CommonState.put (common : CommonState kid pk st) (index : Nat)
    {res : Keys × Point}
    (holds : CommonRing st.config kid pk ⟨res.1.ring, res.2⟩) :
    CommonState kid pk (st.put index res) where
  several := by
    simp only [State.put, List.length_set]
    exact common.several
  rings := by
    grind [rings, State.put]
  signed := common.signed

theorem CommonState.serve (common : CommonState kid pk st) (calm : Calm st move)
    (taken : serve st move = some next) :
    CommonState kid pk next ∧ next.serving = st.serving := by
  cases move with
  | load newKid newKey => cases taken
  | sweep index =>
    simp only [Rings.serve] at taken
    split at taken
    case h_2 => cases taken
    case h_1 ks found =>
      cases taken
      have isCommon := common.rings _ (List.mem_of_getElem? found)
      have notDue : rotationDue st.config st.now ks = false := by
        rcases calm with few | notDue
        · have within := (List.getElem?_eq_some_iff.mp found).1
          exact absurd (show st.rings.length = 1 by omega) common.several
        · simpa [found] using notDue
      exact ⟨common.put index ⟨isCommon.heads, isCommon.heads.passes, rfl, notDue⟩, rfl⟩
  | rotate index newKid newKey =>
    simp only [Rings.serve] at taken
    split at taken
    case h_2 => cases taken
    case h_1 ks found =>
      exact (common.rings _ (List.mem_of_getElem? found)).calm.elim
  | call index =>
    simp only [Rings.serve] at taken
    split at taken
    case h_2 => cases taken
    case h_1 ring found =>
      obtain ⟨res, advanced, rfl⟩ := Option.map_eq_some_iff.mp taken
      have isCommon := common.rings ring (List.mem_of_getElem? found)
      exact ⟨common.put index (isCommon.advance advanced), rfl⟩
  | sign index req =>
    simp only [Rings.serve] at taken
    split at taken
    case h_2 => cases taken
    case h_1 ring found =>
      split at taken
      case isFalse => cases taken
      case isTrue =>
        split at taken
        case h_2 =>
          cases taken
          exact ⟨common, rfl⟩
        case h_1 tok isSigned =>
          cases taken
          have isCommon := common.rings ring (List.mem_of_getElem? found)
          refine ⟨⟨common.several, common.rings, ?_⟩, rfl⟩
          intro e mem
          rcases List.mem_append.mp mem with old | isNew
          · exact common.signed e old
          · rw [List.mem_singleton.mp isNew]
            exact isCommon.heads.signed isSigned
  | shuffle index order =>
    simp only [Rings.serve] at taken
    split at taken
    case h_2 => cases taken
    case h_1 ring found =>
      split at taken
      case isFalse => cases taken
      case isTrue allowed =>
        cases taken
        simp only [Bool.and_eq_true, decide_eq_true_eq] at allowed
        have isCommon := common.rings ring (List.mem_of_getElem? found)
        exact ⟨@CommonState.put kid pk st common index (⟨st.store, order⟩, ring.point)
          ⟨isCommon.heads.shuffle allowed.2, isCommon.calm⟩, rfl⟩
  | advance elapsed =>
    cases taken
    exact ⟨⟨common.several, common.rings, common.signed⟩, rfl⟩

theorem SoloState.getElem {found : Ring} (solo : SoloState ring st) {index : Nat}
    (isFound : st.rings[index]? = some found) : index = 0 ∧ found = ring := by
  rw [solo.alone] at isFound
  grind

theorem SoloState.put {ring : Ring} (solo : SoloState ring st) {res : Keys × Point}
    (holds : Solo res.1.store ⟨res.1.ring, res.2⟩) :
    SoloState ⟨res.1.ring, res.2⟩ (st.put 0 res) where
  alone := by simp [State.put, solo.alone]
  solo := holds
  signers := solo.signers

theorem SoloState.serve (solo : SoloState ring st) (taken : serve st move = some next) :
    (∃ nextRing, SoloState nextRing next) ∧ next.serving = st.serving := by
  cases move with
  | load newKid newKey => cases taken
  | sweep index =>
    simp only [Rings.serve] at taken
    split at taken
    case h_2 => cases taken
    case h_1 ks found =>
      cases taken
      obtain ⟨rfl, rfl⟩ := solo.getElem found
      obtain ⟨kid, pk, heads, rowed⟩ := solo.solo.heads rfl
      exact ⟨⟨_, solo.put ⟨kid, pk, heads, rowed, heads.passes⟩⟩, rfl⟩
  | rotate index newKid newKey =>
    simp only [Rings.serve] at taken
    split at taken
    case h_2 => cases taken
    case h_1 ks found =>
      split at taken
      case isFalse => cases taken
      case isTrue fresh =>
        cases taken
        obtain ⟨rfl, rfl⟩ := solo.getElem found
        obtain ⟨kid, pk, heads, rowed⟩ := solo.solo.heads rfl
        have unused : ∀ key ∈ ks, key.kid ≠ newKid := by
          simp only [State.fresh, solo.alone, Bool.and_eq_true, List.all_eq_true,
            List.mem_singleton, forall_eq, bne_iff_ne] at fresh
          exact fresh.1
        obtain ⟨key, mem, -, -, active, -⟩ := heads.held
        refine ⟨⟨_, solo.put ⟨heads.unique, unused, heads.unique, ?_⟩⟩, rfl⟩
        exact Retires.ahead kid pk heads rowed (fun _ inRing => inRing) ⟨key, mem, active⟩
  | call index =>
    simp only [Rings.serve] at taken
    split at taken
    case h_2 => cases taken
    case h_1 found isFound =>
      obtain ⟨res, advanced, rfl⟩ := Option.map_eq_some_iff.mp taken
      obtain ⟨rfl, rfl⟩ := solo.getElem isFound
      exact ⟨⟨_, solo.put (solo.solo.advance advanced)⟩, rfl⟩
  | sign index req =>
    simp only [Rings.serve] at taken
    split at taken
    case h_2 => cases taken
    case h_1 found isFound =>
      split at taken
      case isFalse => cases taken
      case isTrue =>
        split at taken
        case h_2 =>
          cases taken
          exact ⟨⟨ring, solo⟩, rfl⟩
        case h_1 tok isSigned =>
          cases taken
          refine ⟨⟨ring, solo.alone, solo.solo, ?_⟩, rfl⟩
          intro e mem
          rcases List.mem_append.mp mem with old | isNew
          · exact solo.signers e old
          · rw [List.mem_singleton.mp isNew]
            exact (solo.getElem isFound).1
  | shuffle index order =>
    simp only [Rings.serve] at taken
    split at taken
    case h_2 => cases taken
    case h_1 found isFound =>
      split at taken
      case isFalse => cases taken
      case isTrue allowed =>
        cases taken
        simp only [Bool.and_eq_true, decide_eq_true_eq] at allowed
        obtain ⟨rfl, rfl⟩ := solo.getElem isFound
        obtain ⟨kid, pk, heads, rowed⟩ := solo.solo.heads allowed.1
        have shuffled : Solo st.store ⟨order, found.point⟩ := by
          have unlocked := allowed.1
          unfold Ring.unlocked at unlocked
          unfold Solo
          cases isPoint : found.point with
          | idle | due => exact ⟨kid, pk, heads.shuffle allowed.2, rowed⟩
          | sweeping | retiring | restoring => simp [isPoint] at unlocked
        exact ⟨⟨_, @SoloState.put st found solo (⟨st.store, order⟩, found.point) shuffled⟩, rfl⟩
  | advance elapsed =>
    cases taken
    exact ⟨⟨ring, solo.alone, solo.solo, solo.signers⟩, rfl⟩

end

/-! ### Every interleaving -/

theorem Holds.serve {st : State} (holds : Holds st) (serving : st.serving = true)
    (calm : Calm st move) (taken : serve st move = some next) : Holds next := by
  cases holds with
  | loading waiting tokens init =>
    rw [serving] at waiting
    cases waiting
  | common _ kid pk common =>
    obtain ⟨stays, same⟩ := common.serve calm taken
    exact Holds.common (same.trans serving) kid pk stays
  | solo _ ring solo =>
    obtain ⟨⟨nextRing, stays⟩, same⟩ := solo.serve taken
    exact Holds.solo (same.trans serving) nextRing stays

theorem Holds.serving {st : State} (holds : Holds st) : Holds { st with serving := true } := by
  cases holds with
  | loading waiting tokens init => exact init.serve tokens
  | common serving kid pk common =>
    exact Holds.common rfl kid pk ⟨common.several, common.rings, common.signed⟩
  | solo serving ring solo => exact Holds.solo rfl ring ⟨solo.alone, solo.solo, solo.signers⟩

theorem step_holds (st : State) (move : Move) (next : State) (holds : Holds st)
    (calm : Calm st move) (taken : step st move = some next) : Holds next := by
  cases move with
  | load kid pk =>
    simp only [step] at taken
    split at taken
    case isFalse => cases taken
    case isTrue allowed =>
      simp only [Bool.and_eq_true, Bool.not_eq_true'] at allowed
      cases holds with
      | loading waiting tokens init =>
        obtain ⟨started, same, sameTokens⟩ := init.load allowed.2 taken
        exact Holds.loading (same.trans waiting) (sameTokens.trans tokens) started
      | common serving | solo serving => simp [serving] at allowed
  | sweep index =>
    have stillCalm : Calm { st with serving := true } (.sweep index) := calm
    exact holds.serving.serve rfl stillCalm taken
  | rotate | call | sign | shuffle | advance =>
    simp only [step] at taken
    refine holds.serving.serve rfl ?_ taken
    trivial

theorem Holds.agree {st : State} (holds : Holds st) : Agree st := by
  cases holds with
  | loading waiting tokens init =>
    constructor
    · intro ring mem _ req
      rcases init.rings with none | ⟨kid, pk, -, heads⟩
      · rw [none] at mem
        cases mem
      · exact (heads ring mem).1.issues st.config st.store st.now req
    grind
  | common serving kid pk common =>
    constructor
    · intro ring mem _ req
      exact (common.rings ring mem).heads.issues st.config st.store st.now req
    · intro signer tok mem _ index ring _ found
      obtain ⟨isKid, isKey⟩ := common.signed _ mem
      rw [isKid, isKey]
      exact (common.rings ring (List.mem_of_getElem? found)).heads.published st.store
  | solo serving ring solo =>
    constructor
    · intro other mem unlocked req
      rw [solo.alone, List.mem_singleton] at mem
      rw [mem] at unlocked ⊢
      obtain ⟨kid, pk, heads, -⟩ := solo.solo.heads unlocked
      exact heads.issues st.config st.store st.now req
    · intro signer tok mem _ index other differs found
      have isZero := solo.signers _ mem
      exact absurd ((solo.getElem found).1.trans isZero.symm) differs

/-- Rings that share a table sign and verify each other's tokens as long as none of several
starts a sweep that rotates. -/
theorem rings_agree_while_calm (now : Int) (cfg : Config) (store : List SigningKey)
    (unique : UniqueKey SigningKey.kid store) (single : (activeKids store).length ≤ 1)
    {moves : List Move} {fin : State}
    (calm : EveryStep step Calm (initial now cfg store) moves)
    (reaches : run step (initial now cfg store) moves = some fin) : Agree fin := by
  have init : Holds (initial now cfg store) :=
    Holds.loading rfl rfl ⟨unique, single_of_length_le single, Or.inl rfl⟩
  exact (run_preserves step_holds init calm reaches).agree

namespace Sample

def request : Request := ⟨7, 1, 3, [], [], none, 0⟩

/-- Two rings are loaded; a day later the first one sweeps, rotates and signs. -/
def rotation : List Move :=
  [.load 1 11, .load 2 22, .advance 86400000000000, .sweep 0, .call 0, .call 0,
    .rotate 0 3 33, .call 0, .call 0, .sign 0 (.access request)]

/-- Then the second one sweeps: the index refuses its new key and its old one. -/
def secondRotation : List Move :=
  [.sweep 1, .call 1, .call 1, .rotate 1 4 44, .call 1, .call 1, .call 1, .call 1]

/-- Two rings are loaded and sweep within the day; the second one signs. -/
def quietDay : List Move :=
  [.load 1 11, .load 2 22, .advance 3600000000000, .sweep 0, .sweep 1, .call 0, .call 1, .call 1,
    .call 0, .sign 1 (.access request)]

end Sample

open Rings.Sample in
theorem quiet_rings_agree : ∃ fin, run step (initial 0 Sample.defaults []) quietDay = some fin
      ∧ fin.tokens.length = 1 ∧ Agree fin := by
  refine ⟨_, rfl, rfl, ?_⟩
  refine rings_agree_while_calm 0 Sample.defaults [] List.nodup_nil (by decide) ?_
    (rfl : run step (initial 0 Sample.defaults []) quietDay = some _)
  decide +kernel

open Rings.Sample in
/-- The second ring does not know the key the first one rotated to, and after its own sweep it
has no key to sign with. -/
theorem rotated_rings_disagree : ∃ middle fin tok,
    run step (initial 0 Sample.defaults []) rotation = some middle
      ∧ middle.tokens = [(0, tok)] ∧ middle.now ≤ tok.expiresAt
      ∧ (∃ ring, middle.rings[1]? = some ring ∧ ring.unlocked = true
        ∧ (middle.keysOf ring).publicKey tok.kid = none)
      ∧ run step middle secondRotation = some fin
      ∧ ∃ ring, fin.rings[1]? = some ring ∧ ring.unlocked = true
        ∧ issue fin.config (fin.keysOf ring) fin.now request = .error .noActiveKey :=
  ⟨_, _, _, rfl, rfl, by decide +kernel, ⟨_, rfl, rfl, rfl⟩, rfl, ⟨_, rfl, rfl, rfl⟩⟩

end TangraAuth.Token.Rings
