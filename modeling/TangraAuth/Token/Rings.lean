import TangraAuth.Token.Retention

/-!
Contract: several rings over one table.

Owns: rings that are loaded one after another and then sweep, one store call at a
time and in any order, and what it means that each of them can sign and verifies
what the others signed.

Does not own: store calls that fail for another reason than the index of active
keys. A ring holds its lock through a sweep and through a rotation, so a signature
waits for these.
-/

namespace TangraAuth.Token.Rings

open Library Store

/-! ### One ring -/

/-- Where a ring is in `Sweep` and in the `Rotate` that may follow it. The lists are what is left
of the loop. -/
inductive Point where
  | idle
  | sweeping (now : Int) (rest : List RingKey) (removed : List KeyID) (rotates : Bool)
  | due
  | retiring (now : Int) (kid : KeyID) (pk : PublicKey) (rest : List RingKey)
      (retired : List KeyID)
  | restoring (now : Int) (rest : List KeyID)
deriving DecidableEq, Repr

structure Ring where
  keys : List RingKey
  point : Point
deriving DecidableEq, Repr

/-- Whether the ring's lock is free. -/
def Ring.unlocked (ring : Ring) : Bool :=
  match ring.point with
  | .idle | .due => true
  | .sweeping _ _ _ _ | .retiring _ _ _ _ _ | .restoring _ _ => false

/-- One turn of the loop of `Sweep`, with its store call. -/
def sweepTurn (cfg : Config) (now : Int) (key : RingKey) (rest : List RingKey)
    (removed : List KeyID) (rotates : Bool) (ks : Keys) : Keys × Point :=
  match key.state with
  | .active =>
    (ks, .sweeping now rest removed
      (rotates || decide (now - key.createdAt ≥ cfg.rotationInterval)))
  | .retiring =>
    if due now cfg.retiringPeriod key.retiringAt then
      (ks.setState now key.kid .retired, .sweeping now rest removed rotates)
    else (ks, .sweeping now rest removed rotates)
  | .retired =>
    if due now cfg.keepRetired key.retiredAt then
      ({ ks with store := removeSigningKey key.kid ks.store },
        .sweeping now rest (key.kid :: removed) rotates)
    else (ks, .sweeping now rest removed rotates)

/-- The next step of the operation the ring is in. -/
def advanceRing (cfg : Config) (ks : Keys) : Point → Option (Keys × Point)
  | .idle | .due => none
  | .sweeping _ [] removed rotates =>
    some ({ ks with ring := ks.ring.filter fun key => key.kid ∉ removed },
      if rotates then .due else .idle)
  | .sweeping now (key :: rest) removed rotates =>
    some (sweepTurn cfg now key rest removed rotates ks)
  | .retiring now kid pk [] retired =>
    some (if insertRefused kid ks.store then (ks, .restoring now retired)
      else (ks.insert (newKey now kid pk) true, .idle))
  | .retiring now kid pk (old :: rest) retired =>
    some (if old.state = .active then
        (ks.setState now old.kid .retiring, .retiring now kid pk rest (retired ++ [old.kid]))
      else (ks, .retiring now kid pk rest retired))
  | .restoring _ [] => some (ks, .idle)
  | .restoring now (kid :: rest) =>
    some (if activateRefused kid ks.store then (ks, .restoring now rest)
      else (ks.setState now kid .active, .restoring now rest))

/-! ### The system -/

/-- `serving` ends the start, in which the rings are loaded. Tokens are kept with the ring that
signed them. -/
structure State where
  now : Int
  config : Config
  store : List SigningKey
  rings : List Ring
  serving : Bool
  tokens : List (Nat × SignedToken)

inductive SignRequest where
  | access (req : Request)
  | enrollment (tid : Option TenantID) (spiffePaths : List String) (ttl : Int)

inductive Move where
  | load (kid : KeyID) (pk : PublicKey)
  | sweep (index : Nat)
  | rotate (index : Nat) (kid : KeyID) (pk : PublicKey)
  | call (index : Nat)
  | sign (index : Nat) (req : SignRequest)
  | shuffle (index : Nat) (order : List RingKey)
  | advance (elapsed : Nat)

/-- A generated key id is no other key's. -/
def State.fresh (st : State) (kid : KeyID) : Bool :=
  (st.rings.all fun ring => ring.keys.all fun key => key.kid != kid)
    && st.store.all fun key => key.kid != kid

def State.keysOf (st : State) (ring : Ring) : Keys := ⟨st.store, ring.keys⟩

/-- What an operation of one ring leaves. -/
def State.put (st : State) (index : Nat) (res : Keys × Point) : State :=
  { st with
    store := res.1.store
    rings := st.rings.set index ⟨res.1.ring, res.2⟩ }

def noFaults : Faults := fun _ => false

def loadRing (st : State) (kid : KeyID) (pk : PublicKey) : Option State :=
  match Keys.load noFaults st.now kid pk ⟨st.store, []⟩ with
  | (ks, true) =>
    some { st with store := ks.store, rings := st.rings ++ [⟨ks.ring, .idle⟩] }
  | (_, false) => none

def signWith (cfg : Config) (ks : Keys) (now : Int) : SignRequest → Except IssueError SignedToken
  | .access req => issue cfg ks now req
  | .enrollment tid spiffePaths ttl => issueEnrollment ks now tid spiffePaths ttl

/-- A move of a ring of the loaded system. -/
def serve (st : State) : Move → Option State
  | .load _ _ => none
  | .sweep index =>
    match st.rings[index]? with
    | some ⟨ks, .idle⟩ => some (st.put index (⟨st.store, ks⟩, .sweeping st.now ks [] false))
    | _ => none
  | .rotate index kid pk =>
    match st.rings[index]? with
    | some ⟨ks, .due⟩ =>
      if st.fresh kid then
        some (st.put index (⟨st.store, ks⟩, .retiring st.now kid pk ks []))
      else none
    | _ => none
  | .call index =>
    match st.rings[index]? with
    | some ring =>
      (advanceRing st.config (st.keysOf ring) ring.point).map (st.put index)
    | none => none
  | .sign index req =>
    match st.rings[index]? with
    | some ring =>
      if ring.unlocked then
        match signWith st.config (st.keysOf ring) st.now req with
        | .ok tok => some { st with tokens := st.tokens ++ [(index, tok)] }
        | .error _ => some st
      else none
    | none => none
  | .shuffle index order =>
    match st.rings[index]? with
    | some ring =>
      if ring.unlocked && decide (order.Perm ring.keys) then
        some { st with rings := st.rings.set index ⟨order, ring.point⟩ }
      else none
    | none => none
  | .advance elapsed => some { st with now := st.now + elapsed }

def step (st : State) : Move → Option State
  | .load kid pk =>
    if !st.serving && st.fresh kid then loadRing st kid pk else none
  | move => serve { st with serving := true } move

def initial (now : Int) (cfg : Config) (store : List SigningKey) : State :=
  ⟨now, cfg.normalize, store, [], false, []⟩

/-! ### The property -/

structure Agree (st : State) : Prop where
  signs : ∀ ring ∈ st.rings, ring.unlocked = true →
    ∀ req, ∃ tok, issue st.config (st.keysOf ring) st.now req = .ok tok
  verifies : ∀ signer tok, (signer, tok) ∈ st.tokens → st.now ≤ tok.expiresAt →
    ∀ index ring, index ≠ signer → st.rings[index]? = some ring →
      (st.keysOf ring).publicKey tok.kid = some tok.signer

/-- No ring starts a sweep that will rotate while there are other rings. -/
def Calm (st : State) : Move → Prop
  | .sweep index => st.rings.length ≤ 1
      ∨ (st.rings[index]?.any fun ring => rotationDue st.config st.now ring.keys) = false
  | .load _ _ | .rotate _ _ _ | .call _ | .sign _ _ | .shuffle _ _ | .advance _ => True

instance (st : State) (move : Move) : Decidable (Calm st move) :=
  match move with
  | .sweep _ => inferInstanceAs (Decidable (_ ∨ _))
  | .load _ _ | .rotate _ _ _ | .call _ | .sign _ _ | .shuffle _ _ | .advance _ =>
    .isTrue True.intro

end TangraAuth.Token.Rings
