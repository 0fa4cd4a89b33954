import TangraAuth.Authz.Objects
import Mathlib.Order.FixedPoints

/-!
Contract: the two backends of the client.

Owns: the requests the SDK backend splits a write into, the relations of `Model()` with
their meaning as a least fixpoint, and the check of the in-memory backend, which decides it.

Does not own: what a request does in the store of the backend.
-/

namespace TangraAuth.Authz.Objects

open TangraAuth.Authz
open Library (Edit edits packRequests writeRequests writeRequests_flatten writeRequests_sizes)

/-! ### Requests of the SDK -/

structure ClientWriteRequest where
  writes : List Tuple
  deletes : List Tuple

def ClientWriteRequest.changes (req : ClientWriteRequest) : List (Edit Tuple) :=
  edits req.writes req.deletes

/-- The variables of the loops: the requests made, the one being filled and what it holds. -/
structure Chunks where
  out : List ClientWriteRequest
  cur : ClientWriteRequest
  n : Nat

namespace Chunks

def flush (chunks : Chunks) : Chunks :=
  if 0 < chunks.n then ⟨chunks.out ++ [chunks.cur], ⟨[], []⟩, 0⟩ else chunks

/-- A full request is flushed before the next tuple. -/
def ready (chunks : Chunks) : Chunks :=
  if chunks.n = maxTuplesPerWrite then chunks.flush else chunks

def write (chunks : Chunks) (tuple : Tuple) : Chunks :=
  let ready := chunks.ready
  ⟨ready.out, { ready.cur with writes := ready.cur.writes ++ [tuple] }, ready.n + 1⟩

def delete (chunks : Chunks) (tuple : Tuple) : Chunks :=
  let ready := chunks.ready
  ⟨ready.out, { ready.cur with deletes := ready.cur.deletes ++ [tuple] }, ready.n + 1⟩

end Chunks

def writeChunks (adds removes : List Tuple) : List ClientWriteRequest :=
  (removes.foldl Chunks.delete (adds.foldl Chunks.write ⟨[], ⟨[], []⟩, 0⟩)).flush.out

/-- The invariant of both loops: the requests made and those that are still to be packed. -/
structure Chunks.Packs (chunks : Chunks) (rest : List (Edit Tuple))
    (requests : List (List (Edit Tuple))) : Prop where
  counted : chunks.n = chunks.cur.changes.length
  whole : chunks.out.map ClientWriteRequest.changes
    ++ packRequests maxTuplesPerWrite chunks.cur.changes rest = requests

namespace Chunks

variable {chunks : Chunks} {requests : List (List (Edit Tuple))}

/-- The request that is ready takes one more change. -/
theorem push_packs {change : Edit Tuple} {rest : List (Edit Tuple)} {cur : ClientWriteRequest}
    (packs : chunks.Packs (change :: rest) requests)
    (pushed : cur.changes = chunks.ready.cur.changes ++ [change]) :
    Packs ⟨chunks.ready.out, cur, chunks.ready.n + 1⟩ rest requests := by
  obtain ⟨counted, whole⟩ := packs
  rw [packRequests, ← counted] at whole
  unfold ready flush at pushed ⊢
  split_ifs at whole pushed ⊢ with full some
  · have single : cur.changes = [change] := pushed
    refine ⟨by rw [single]; rfl, ?_⟩
    rw [single, List.map_append, List.append_assoc]
    exact whole
  · exact absurd (full ▸ (by decide : 0 < maxTuplesPerWrite)) some
  · exact ⟨by simp [pushed, counted], by rw [pushed]; exact whole⟩

theorem delete_packs (removes : List Tuple)
    (packs : chunks.Packs (removes.map Edit.remove) requests) :
    (removes.foldl delete chunks).Packs [] requests := by
  induction removes generalizing chunks with
  | nil => exact packs
  | cons tuple rest ih =>
    exact ih (push_packs packs (by simp [ClientWriteRequest.changes, edits]))

/-- While writes are made no request holds a delete. -/
theorem write_packs (adds removes : List Tuple)
    (packs : chunks.Packs (edits adds removes) requests) (undeleted : chunks.cur.deletes = []) :
    (adds.foldl write chunks).Packs (removes.map Edit.remove) requests := by
  induction adds generalizing chunks with
  | nil => exact packs
  | cons tuple rest ih =>
    have still : chunks.ready.cur.deletes = [] := by
      unfold ready flush
      split_ifs <;> first | rfl | exact undeleted
    exact ih (push_packs packs (by simp [ClientWriteRequest.changes, edits, still])) still

end Chunks

/-- The requests of the SDK are the requests a write is made of. -/
theorem writeChunks_changes (adds removes : List Tuple) :
    (writeChunks adds removes).map ClientWriteRequest.changes
      = writeRequests maxTuplesPerWrite adds removes := by
  have init : Chunks.Packs ⟨[], ⟨[], []⟩, 0⟩ (edits adds removes)
      (writeRequests maxTuplesPerWrite adds removes) := ⟨rfl, rfl⟩
  have packs := Chunks.delete_packs removes (Chunks.write_packs adds removes init rfl)
  unfold writeChunks
  generalize removes.foldl Chunks.delete _ = chunks at packs ⊢
  obtain ⟨counted, whole⟩ := packs
  rw [← whole, Chunks.flush]
  cases changes : chunks.cur.changes with
  | nil =>
    rw [changes] at counted
    rw [if_neg (by simp [counted])]
    exact (List.append_nil _).symm
  | cons first rest =>
    rw [changes] at counted
    rw [if_pos (by simp [counted]), List.map_append, ← changes]
    simp [packRequests, changes]

/-- Every request is within the limit, and in order the requests hold the adds and then the
removes. -/
theorem writeChunks_splits (adds removes : List Tuple) :
    (∀ req ∈ writeChunks adds removes, 1 ≤ req.writes.length + req.deletes.length
        ∧ req.writes.length + req.deletes.length ≤ 100)
      ∧ (writeChunks adds removes).flatMap ClientWriteRequest.changes = edits adds removes := by
  have requests := writeChunks_changes adds removes
  constructor
  · intro req mem
    have size := writeRequests_sizes (by decide) adds removes req.changes
      (requests ▸ List.mem_map_of_mem mem)
    rwa [ClientWriteRequest.changes, edits, List.length_append, List.length_map, List.length_map]
      at size
  · rw [List.flatMap, requests, writeRequests_flatten]

/-! ### The model -/

inductive Userset where
  | this
  | computed (rel : String)
  | union (left right : Userset)

/-- Objects of a type, or the userset of a relation on them. -/
structure RelationReference where
  type : String
  relation : Option String

structure Relation where
  rewrite : Userset
  directlyRelatedUserTypes : List RelationReference

/-- `Model()`, by type and relation. -/
def relations : List ((String × String) × Relation) :=
  let userRef : RelationReference := ⟨"user", none⟩
  let tenantRef : RelationReference := ⟨"tenant", none⟩
  [(("tenant", "owner"), ⟨.this, [userRef]⟩),
    (("tenant", "admin"), ⟨.union .this (.computed "owner"), [userRef]⟩),
    (("tenant", "member"), ⟨.union .this (.computed "admin"), [userRef]⟩),
    (("group", "tenant"), ⟨.this, [tenantRef]⟩),
    (("group", "member"), ⟨.this, [userRef]⟩),
    (("role", "tenant"), ⟨.this, [tenantRef]⟩),
    (("role", "assignee"), ⟨.this, [userRef, ⟨"group", some "member"⟩]⟩),
    (("permission", "tenant"), ⟨.this, [tenantRef]⟩),
    (("permission", "granted"), ⟨.this, [⟨"role", some "assignee"⟩]⟩)]

/-- An object of the type, whose id holds no `#`. -/
def IsObject (type text : String) : Prop :=
  ∃ id : String, '#' ∉ id.toList ∧ text = type ++ ":" ++ id

def RelationReference.Allows (ref : RelationReference) (user : String) : Prop :=
  match ref.relation with
  | none => IsObject ref.type user
  | some rel => ∃ obj, IsObject ref.type obj ∧ user = obj ++ "#" ++ rel

/-- The relation the model gives the object. -/
def Defines (rel obj : String) (df : Relation) : Prop :=
  ∃ type, IsObject type obj ∧ ((type, rel), df) ∈ relations

def WellTyped (tuple : Tuple) : Prop :=
  ∃ df, Defines tuple.relation tuple.object df
    ∧ ∃ ref ∈ df.directlyRelatedUserTypes, ref.Allows tuple.user

/-! ### Its meaning -/

def Userset.Holds (this : Prop) (computed : String → Prop) : Userset → Prop
  | .this => this
  | .computed rel => computed rel
  | .union left right => left.Holds this computed ∨ right.Holds this computed

theorem Userset.Holds.mono {this this' : Prop} {computed computed' : String → Prop}
    (direct : this → this') (other : ∀ rel, computed rel → computed' rel) :
    ∀ rewrite : Userset, rewrite.Holds this computed → rewrite.Holds this' computed'
  | .this => direct
  | .computed rel => other rel
  | .union left right => Or.imp (mono direct other left) (mono direct other right)

variable (tuples : List Tuple) (user : String)

/-- A stored tuple names the user, or a userset the user is in. -/
def Direct (held : String → String → Prop) (rel obj : String) : Prop :=
  ⟨user, rel, obj⟩ ∈ tuples ∨ ∃ userset inner ofInner,
    ⟨userset, rel, obj⟩ ∈ tuples ∧ cut '#' userset = some (inner, ofInner) ∧ held ofInner inner

/-- One application of the model's definitions. -/
def derive : (String → String → Prop) →o (String → String → Prop) where
  toFun held rel obj := ∃ df, Defines rel obj df
    ∧ df.rewrite.Holds (Direct tuples user held rel obj) (held · obj)
  monotone' := by
    rintro held more le rel obj ⟨df, defined, holds⟩
    refine ⟨df, defined, holds.mono (Or.imp_right ?_) fun other => le other obj⟩
    rintro ⟨userset, inner, ofInner, stored, isUserset, within⟩
    exact ⟨userset, inner, ofInner, stored, isUserset, le _ _ within⟩

/-- The least fixpoint: what the model derives from the tuples for the user. -/
def Related : String → String → Prop := (derive tuples user).lfp

/-! ### The evaluator -/

def cutSuffix (text suffix : String) : Option String :=
  if suffix.toList <:+ text.toList then
    some (.ofList (text.toList.take (text.length - suffix.length)))
  else none

def rank (rel : String) : Nat :=
  if rel = "granted" then 4 else if rel = "assignee" then 3
  else if rel = "member" then 2 else if rel = "admin" then 1 else 0

/-- `Fake.check`; the tuples stand in the order they are walked. -/
def check (tuples : List Tuple) (t : Tuple) : Bool :=
  if t ∈ tuples then true
  else if _ : t.relation = "member" then
    "tenant:".toList.isPrefixOf t.object.toList && check tuples ⟨t.user, "admin", t.object⟩
  else if _ : t.relation = "admin" then check tuples ⟨t.user, "owner", t.object⟩
  else if _ : t.relation = "assignee" then
    tuples.any fun k => k.object == t.object && k.relation == "assignee"
      && match cutSuffix k.user "#member" with
        | some group => check tuples ⟨t.user, "member", group⟩
        | none => false
  else if _ : t.relation = "granted" then
    tuples.any fun k => k.object == t.object && k.relation == "granted"
      && match cutSuffix k.user "#assignee" with
        | some role => check tuples ⟨t.user, "assignee", role⟩
        | none => false
  else false
termination_by rank t.relation
decreasing_by all_goals simp [rank, *]

variable {tuples user}

theorem cutSuffix_eq_some {text suffix front : String} :
    cutSuffix text suffix = some front ↔ text = front ++ suffix := by
  unfold cutSuffix
  constructor
  · intro found
    split_ifs at found with ends
    obtain ⟨letters, whole⟩ := ends
    cases found
    rw [← String.toList_inj, String.toList_append, String.toList_ofList, ← whole]
    simp [← String.length_toList, ← whole]
  · rintro rfl
    simp [← String.length_toList]

theorem any_cutSuffix {rel obj suffix : String} {next : String → Bool} :
    (tuples.any fun k => k.object == obj && k.relation == rel
      && match cutSuffix k.user suffix with
        | some inner => next inner
        | none => false) = true
      ↔ ∃ inner, ⟨inner ++ suffix, rel, obj⟩ ∈ tuples ∧ next inner = true := by
  rw [List.any_eq_true]
  constructor
  · rintro ⟨⟨from', relation', object'⟩, stored, found⟩
    simp only [Bool.and_eq_true, beq_iff_eq] at found
    obtain ⟨⟨rfl, rfl⟩, found⟩ := found
    split at found
    · rename_i inner cut
      rw [cutSuffix_eq_some] at cut
      exact ⟨inner, cut ▸ stored, found⟩
    · cases found
  · rintro ⟨inner, stored, holds⟩
    refine ⟨_, stored, ?_⟩
    simp [cutSuffix_eq_some.mpr, holds]

variable {rel obj : String}

theorem check_iff : check tuples ⟨user, rel, obj⟩ = true ↔ ⟨user, rel, obj⟩ ∈ tuples
      ∨ (rel = "member" ∧ "tenant:".toList <+: obj.toList
        ∧ check tuples ⟨user, "admin", obj⟩ = true)
      ∨ (rel = "admin" ∧ check tuples ⟨user, "owner", obj⟩ = true)
      ∨ (rel = "assignee" ∧ ∃ group, ⟨group ++ "#member", "assignee", obj⟩ ∈ tuples
        ∧ check tuples ⟨user, "member", group⟩ = true)
      ∨ (rel = "granted" ∧ ∃ role, ⟨role ++ "#assignee", "granted", obj⟩ ∈ tuples
        ∧ check tuples ⟨user, "assignee", role⟩ = true) := by
  rw [check]
  split_ifs with stored member admin assignee granted
  · simp [stored]
  · simp_all
  · simp_all
  · rw [any_cutSuffix]
    simp_all
  · rw [any_cutSuffix]
    simp_all
  · simp_all

theorem IsObject.unmarked {type text : String} (isObject : IsObject type text)
    (apart : '#' ∉ type.toList) : '#' ∉ text.toList := by
  obtain ⟨id, unmarked, rfl⟩ := isObject
  simp [apart, unmarked]

/-- The users the model allows: objects, members of groups and assignees of roles. -/
theorem WellTyped.user_cases {t : Tuple} (typed : WellTyped t) : '#' ∉ t.user.toList
      ∨ (t.relation = "assignee" ∧ ∃ group, IsObject "group" group ∧ t.user = group ++ "#member")
      ∨ (t.relation = "granted" ∧ ∃ role, IsObject "role" role ∧ t.user = role ++ "#assignee") := by
  obtain ⟨df, ⟨type, isObject, defined⟩, ref, allowed, allows⟩ := typed
  have table : ∀ entry ∈ relations, ∀ ref ∈ entry.2.directlyRelatedUserTypes,
      (ref.relation = none ∧ '#' ∉ ref.type.toList)
        ∨ (entry.1.2 = "assignee" ∧ ref = ⟨"group", some "member"⟩)
        ∨ (entry.1.2 = "granted" ∧ ref = ⟨"role", some "assignee"⟩) := by
    simp [relations]
  unfold RelationReference.Allows at allows
  rcases table _ defined ref allowed with ⟨plain, apart⟩ | ⟨isAssignee, rfl⟩ | ⟨isGranted, rfl⟩
  · rw [plain] at allows
    exact Or.inl (allows.unmarked apart)
  · obtain ⟨group, isGroup, isUser⟩ := allows
    exact Or.inr (Or.inl ⟨isAssignee, group, isGroup, isUser.trans (String.append_assoc ..)⟩)
  · obtain ⟨role, isRole, isUser⟩ := allows
    exact Or.inr (Or.inr ⟨isGranted, role, isRole, isUser.trans (String.append_assoc ..)⟩)

theorem cut_userset {inner rel : String} (unmarked : '#' ∉ inner.toList) :
    cut '#' (inner ++ ("#" ++ rel)) = some (inner, rel) := by
  rw [← String.append_assoc]
  exact cut_append unmarked

theorem related_iff : Related tuples user rel obj
    ↔ derive tuples user (Related tuples user) rel obj := by
  rw [Related, OrderHom.map_lfp]

/-- Every definition of the model reads the stored tuples. -/
theorem Related.of_direct {df : Relation} (defined : Defines rel obj df)
    (direct : Direct tuples user (Related tuples user) rel obj) :
    Related tuples user rel obj := by
  refine related_iff.mpr ⟨df, defined, ?_⟩
  have table : ∀ entry ∈ relations, ∀ computed : String → Prop,
      entry.2.rewrite.Holds True computed := by
    simp [relations, Userset.Holds]
  obtain ⟨type, -, mem⟩ := defined
  exact (table _ mem _).mono (fun _ => direct) fun _ => id

theorem Related.of_computed {smaller : String} (isT : IsObject "tenant" obj)
    (held : Related tuples user smaller obj)
    (mem : (("tenant", rel), ⟨.union .this (.computed smaller), [⟨"user", none⟩]⟩) ∈ relations) :
    Related tuples user rel obj :=
  related_iff.mpr ⟨_, ⟨_, isT, mem⟩, Or.inr held⟩

theorem defined_of_mem {type : String} (isObject : IsObject type obj)
    (mem : (type, rel) ∈ relations.map Prod.fst) : ∃ df, Defines rel obj df := by
  obtain ⟨entry, mem, key⟩ := List.mem_map.mp mem
  exact ⟨entry.2, type, isObject, key ▸ mem⟩

/-- By induction on the rank of the relation, along the calls. -/
theorem related_of_check (typed : ∀ t ∈ tuples, WellTyped t) (defined : ∃ df, Defines rel obj df)
    (checked : check tuples ⟨user, rel, obj⟩ = true) :
    Related tuples user rel obj := by
  induction height : rank rel using Nat.strong_induction_on generalizing rel obj with
  | _ height ih =>
    subst height
    obtain ⟨df, type, isObject, mem⟩ := defined
    have table : ∀ entry ∈ relations, (entry.1.2 = "admin" → entry.1.1 = "tenant")
        ∧ (entry.1.2 = "member" → entry.1.1 = "tenant" ∨ entry.1.1 = "group") := by
      simp [relations]
    have walk : ∀ {inner ofInner}, ⟨inner ++ ("#" ++ ofInner), rel, obj⟩ ∈ tuples →
        '#' ∉ inner.toList → Related tuples user ofInner inner →
        Related tuples user rel obj := fun stored unmarked held =>
      .of_direct ⟨type, isObject, mem⟩ (Or.inr ⟨_, _, _, stored, cut_userset unmarked, held⟩)
    rcases check_iff.mp checked with stored | ⟨rfl, ofTenant, admin⟩ | ⟨rfl, owner⟩
      | ⟨rfl, group, stored, member⟩ | ⟨rfl, role, stored, assignee⟩
    · exact .of_direct ⟨type, isObject, mem⟩ (Or.inl stored)
    · have isT : IsObject "tenant" obj := by
        rcases (table _ mem).2 rfl with rfl | rfl
        · exact isObject
        · obtain ⟨id, -, rfl⟩ := isObject
          simp at ofTenant
      have held := ih _ (by decide) (defined_of_mem isT (by decide)) admin rfl
      exact .of_computed isT held (by simp [relations])
    · cases (table _ mem).1 rfl
      have held := ih _ (by decide) (defined_of_mem isObject (by decide)) owner rfl
      exact .of_computed isObject held (by simp [relations])
    · rcases (typed _ stored).user_cases with plain | ⟨-, inner, isGroup, same⟩ | ⟨other, -⟩
      · simp at plain
      · cases String.append_left_inj _ |>.mp same
        have held := ih _ (by decide) (defined_of_mem isGroup (by decide)) member rfl
        exact walk stored (isGroup.unmarked (by decide)) held
      · simp at other
    · rcases (typed _ stored).user_cases with plain | ⟨other, -⟩ | ⟨-, inner, isRole, same⟩
      · simp at plain
      · simp at other
      · cases String.append_left_inj _ |>.mp same
        have held := ih _ (by decide) (defined_of_mem isRole (by decide)) assignee rfl
        exact walk stored (isRole.unmarked (by decide)) held

/-- What the evaluator answers is closed under the model's definitions. -/
theorem check_of_related (typed : ∀ t ∈ tuples, WellTyped t)
    (related : Related tuples user rel obj) :
    check tuples ⟨user, rel, obj⟩ = true := by
  refine OrderHom.lfp_le (derive tuples user)
    (a := fun rel obj => check tuples ⟨user, rel, obj⟩ = true) ?_ _ _ related
  rintro rel obj ⟨df, ⟨type, isObject, mem⟩, holds⟩
  have table : ∀ entry ∈ relations, entry.2.rewrite = .this
      ∨ (entry.1 = ("tenant", "admin") ∧ entry.2.rewrite = .union .this (.computed "owner"))
      ∨ (entry.1 = ("tenant", "member") ∧ entry.2.rewrite = .union .this (.computed "admin")) := by
    simp [relations]
  have direct : Direct tuples user (check tuples ⟨user, ·, ·⟩ = true) rel obj →
      check tuples ⟨user, rel, obj⟩ = true := by
    rintro (stored | ⟨userset, inner, ofInner, stored, isUserset, held⟩)
    · exact check_iff.mpr (Or.inl stored)
    · rcases (typed _ stored).user_cases with plain | ⟨rfl, group, isGroup, rfl⟩
        | ⟨rfl, role, isRole, rfl⟩
      · rw [cut_eq_none plain] at isUserset
        cases isUserset
      · rw [show "#member" = "#" ++ "member" from rfl, cut_userset (isGroup.unmarked (by decide))]
          at isUserset
        cases isUserset
        exact check_iff.mpr (.inr (.inr (.inr (.inl ⟨rfl, inner, stored, held⟩))))
      · rw [show "#assignee" = "#" ++ "assignee" from rfl,
          cut_userset (isRole.unmarked (by decide))] at isUserset
        cases isUserset
        exact check_iff.mpr (.inr (.inr (.inr (.inr ⟨rfl, inner, stored, held⟩))))
  rcases table _ mem with rewrite | ⟨key, rewrite⟩ | ⟨key, rewrite⟩ <;> rw [rewrite] at holds
  · exact direct holds
  · cases key
    exact holds.elim direct fun owner => check_iff.mpr (.inr (.inr (.inl ⟨rfl, owner⟩)))
  · cases key
    obtain ⟨id, -, rfl⟩ := isObject
    refine holds.elim direct fun admin => check_iff.mpr (.inr (.inl ⟨rfl, ?_, admin⟩))
    simp

/-- The evaluator decides the least fixpoint of the model. -/
theorem check_iff_related (tuples : List Tuple) (query : Tuple) (typed : ∀ t ∈ tuples, WellTyped t)
    (defined : ∃ df, Defines query.relation query.object df) :
    check tuples query = true ↔ Related tuples query.user query.relation query.object :=
  ⟨related_of_check typed defined, check_of_related typed⟩

def Sample.owned : List Tuple := [⟨"user:u", "owner", "tenant:t"⟩]

theorem owner_is_member : Related Sample.owned "user:u" "member" "tenant:t" := by
  have isT : IsObject "tenant" "tenant:t" := ⟨"t", by decide, rfl⟩
  have typed : ∀ t ∈ Sample.owned, WellTyped t := by
    simp only [Sample.owned, List.forall_mem_singleton]
    exact ⟨_, ⟨_, isT, .head _⟩, _, .head _, ⟨"u", by decide, rfl⟩⟩
  refine (check_iff_related Sample.owned ⟨"user:u", "member", "tenant:t"⟩ typed
    (defined_of_mem isT (by decide))).mp ?_
  simp [check, Sample.owned]

end TangraAuth.Authz.Objects
