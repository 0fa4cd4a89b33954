import TangraAuth.Library.Table
import TangraAuth.Tenant.Policy

/-!
Contract: the signing keys, in the database and in the memory of one ring.

Owns: the statements on `signing_keys`, the configuration a ring ends up with,
and `Load`, `Rotate` and `Sweep` with each of their store calls and what a failing
one leaves behind.

Does not own: key generation and sealing, which give a key id no other key has and
fail where the oracle says so. The database's `now()` is the ring's clock.
-/

namespace TangraAuth.Token

open TangraAuth.Library

abbrev KeyID := Nat
abbrev PublicKey := Nat

inductive KeyState where
  | active
  | retiring
  | retired
deriving DecidableEq, Repr

/-- A row of `signing_keys`, without its sealed private half. -/
structure SigningKey where
  kid : KeyID
  publicKey : PublicKey
  state : KeyState
  createdAt : Int
  retiringAt : Option Int
  retiredAt : Option Int
deriving DecidableEq, Repr

/-- A key in memory; `priv` says whether the private half is there. -/
structure RingKey extends SigningKey where
  priv : Bool
deriving DecidableEq, Repr

/-! ### Configuration -/

structure Config where
  accessLifetime : Int
  rotationInterval : Int
  retiringPeriod : Int
  clockSkew : Int
deriving DecidableEq, Repr

/-- The configuration `NewRing` makes of a given one. -/
def Config.normalize (cfg : Config) : Config where
  accessLifetime :=
    if cfg.accessLifetime ≤ 0 ∨ cfg.accessLifetime > 15 * minute then 15 * minute
    else cfg.accessLifetime
  rotationInterval :=
    if cfg.rotationInterval ≤ 0 then 24 * hour else cfg.rotationInterval
  retiringPeriod := if cfg.retiringPeriod ≤ 0 then 30 * minute else cfg.retiringPeriod
  clockSkew :=
    if cfg.clockSkew ≤ 0 ∨ cfg.clockSkew > 60 * second then 60 * second
    else cfg.clockSkew

/-- The longest lifetime of an enrollment token. -/
def maxEnrollLifetime : Int := 24 * hour

/-- How long a retired key stays verifiable. -/
def Config.keepRetired (cfg : Config) : Int :=
  max cfg.accessLifetime maxEnrollLifetime + cfg.clockSkew

/-! ### The statements -/

/-- What a change of state does to a row. -/
def SigningKey.changed (now : Int) (st : KeyState) (key : SigningKey) : SigningKey :=
  { key with
    state := st
    retiringAt := if st = .retiring then some now else key.retiringAt
    retiredAt := if st = .retired then some now else key.retiredAt }

def setSigningKeyState (now : Int) (kid : KeyID) (st : KeyState) :
    List SigningKey → List SigningKey :=
  updateWhere (fun key => key.kid == kid) (SigningKey.changed now st)

def removeSigningKey (kid : KeyID) (store : List SigningKey) : List SigningKey :=
  store.filter fun key => !(key.kid == kid && decide (key.state = .retired))

def otherActive (kid : KeyID) (store : List SigningKey) : Bool :=
  store.any fun key => decide (key.state = .active) && key.kid != kid

/-- `signing_keys_single_active` refuses a new active row beside another one. -/
def insertRefused (kid : KeyID) (store : List SigningKey) : Bool := otherActive kid store

/-- `signing_keys_single_active` refuses to make a row active beside another one. -/
def activateRefused (kid : KeyID) (store : List SigningKey) : Bool :=
  (store.any fun key => key.kid == kid) && otherActive kid store

/-! ### The ring -/

/-- The table and the ring's map, as a list in the order it is iterated in. -/
structure Keys where
  store : List SigningKey
  ring : List RingKey
deriving DecidableEq, Repr

inductive StoreCall where
  | list
  | openKey (kid : KeyID)
  | generate
  | insert
  | setState (kid : KeyID) (st : KeyState)
  | remove (kid : KeyID)
deriving DecidableEq

/-- Which calls of an operation the store refuses: they have no effect. Calls that the index
refuses fail as well. A call that is made and whose answer is lost is not among the faults here. -/
abbrev Faults := StoreCall → Bool

/-- What a change of state does to the key in memory. -/
def RingKey.changed (now : Int) (st : KeyState) (key : RingKey) : RingKey :=
  match st with
  | .active => { key with state := .active, retiringAt := none }
  | .retiring => { key with state := .retiring, retiringAt := some now }
  | .retired => { key with state := .retired, priv := false, retiredAt := some now }

/-- `SetState` that succeeded, with the update of the memory that follows it. -/
def Keys.setState (ks : Keys) (now : Int) (kid : KeyID) (st : KeyState) : Keys where
  store := setSigningKeyState now kid st ks.store
  ring := updateWhere (fun key => key.kid == kid) (RingKey.changed now st) ks.ring

/-- The loop of `Rotate` over the active keys: the keys it retired, and whether it came to its
end. -/
def retireActive (fs : Faults) (now : Int) : List RingKey → Keys → Keys × List KeyID × Bool
  | [], ks => (ks, [], true)
  | old :: rest, ks =>
    if old.state = .active then
      if fs (.setState old.kid .retiring) then (ks, [], false)
      else
        let (fin, retired, ok) :=
          retireActive fs now rest (ks.setState now old.kid .retiring)
        (fin, old.kid :: retired, ok)
    else retireActive fs now rest ks

/-- After a failed insertion the retired keys are put back, as far as that succeeds. -/
def putBack (fs : Faults) (now : Int) : List KeyID → Keys → Keys
  | [], ks => ks
  | kid :: rest, ks =>
    if fs (.setState kid .active) || activateRefused kid ks.store then
      putBack fs now rest ks
    else putBack fs now rest (ks.setState now kid .active)

/-- A generated key. -/
def newKey (now : Int) (kid : KeyID) (pk : PublicKey) : SigningKey :=
  ⟨kid, pk, .active, now, none, none⟩

def Keys.insert (ks : Keys) (key : SigningKey) (opened : Bool) : Keys where
  store := ks.store ++ [key]
  ring := ks.ring ++ [{ key with priv := opened }]

def Keys.rotate (fs : Faults) (now : Int) (kid : KeyID) (pk : PublicKey)
    (ks : Keys) : Keys × Bool :=
  if fs .generate then (ks, false)
  else
    let (retiredKeys, retired, ok) := retireActive fs now ks.ring ks
    if !ok then (retiredKeys, false)
    else if fs .insert || insertRefused kid retiredKeys.store then
      (putBack fs now retired retiredKeys, false)
    -- The error of opening the new key is dropped: its private half is then missing.
    else (retiredKeys.insert (newKey now kid pk) (!fs (.openKey kid)), true)

/-- A stored key as `Load` puts it in the map. -/
def loaded (key : SigningKey) : RingKey :=
  { key with priv := decide (key.state ≠ .retired) }

def Keys.load (fs : Faults) (now : Int) (kid : KeyID) (pk : PublicKey) (ks : Keys) : Keys × Bool :=
  if fs .list then (ks, false)
  else if ks.store.any fun key => decide (key.state ≠ .retired) && fs (.openKey key.kid)
  then (ks, false)
  else
    let fresh : Keys := { ks with ring := ks.store.map loaded }
    if ks.store.any fun key => decide (key.state = .active) then (fresh, true)
    else fresh.rotate fs now kid pk

/-- The instant is set and at least `period` ago. -/
def due (now period : Int) (since : Option Int) : Bool :=
  since.any fun ins => decide (now - ins ≥ period)

/-- The loop of `Sweep`: the keys it removed from the store, and whether it came to its end. -/
def sweepKeys (fs : Faults) (cfg : Config) (now : Int) :
    List RingKey → Keys → Keys × List KeyID × Bool
  | [], ks => (ks, [], true)
  | key :: rest, ks =>
    match key.state with
    | .active => sweepKeys fs cfg now rest ks
    | .retiring =>
      if due now cfg.retiringPeriod key.retiringAt then
        if fs (.setState key.kid .retired) then (ks, [], false)
        else sweepKeys fs cfg now rest (ks.setState now key.kid .retired)
      else sweepKeys fs cfg now rest ks
    | .retired =>
      if due now cfg.keepRetired key.retiredAt then
        if fs (.remove key.kid) then (ks, [], false)
        else
          let (fin, removed, ok) := sweepKeys fs cfg now rest
            { ks with store := removeSigningKey key.kid ks.store }
          (fin, key.kid :: removed, ok)
      else sweepKeys fs cfg now rest ks

/-- The active key is as old as the rotation interval. -/
def rotationDue (cfg : Config) (now : Int) (ks : List RingKey) : Bool :=
  ks.any fun key =>
    decide (key.state = .active) && decide (now - key.createdAt ≥ cfg.rotationInterval)

def Keys.sweep (fs : Faults) (cfg : Config) (now : Int) (kid : KeyID)
    (pk : PublicKey) (ks : Keys) : Keys × Bool :=
  let (swept, removed, ok) := sweepKeys fs cfg now ks.ring ks
  if !ok then (swept, false)
  else
    let kept : Keys := { swept with ring := swept.ring.filter fun key => key.kid ∉ removed }
    if rotationDue cfg now ks.ring then kept.rotate fs now kid pk else (kept, true)

/-- The active key created last, the first such one in the map's order. -/
def activeKey (ring : List RingKey) : Option RingKey :=
  ring.foldl
    (fun best key =>
      if key.state = .active ∧ best.all fun found => decide (found.createdAt < key.createdAt)
      then some key else best)
    none

/-- The published verification key of a key id. -/
def Keys.publicKey (ks : Keys) (kid : KeyID) : Option PublicKey :=
  (ks.ring.find? fun key => key.kid == kid).map fun key => key.publicKey

end TangraAuth.Token
