import TangraAuth.Accounts.Steps
import TangraAuth.Library.Redemptions

/-!
Contract: the single use of sign-in challenges.

Owns: the sessions each challenge has established, for which interleavings of `CompleteMFA`
and `CompleteWebAuthn` it establishes at most one, and two completions that share one.

Does not own: the check of the second factor; its outcome is a choice of the surroundings,
so that whatever happens within the check is covered.
-/

namespace TangraAuth.Accounts

open Library Store

variable {H E : Type}

/-! ### Challenges as tickets -/

/-- The key of the challenge a call completes. -/
def Flow.completes (ht : Token → H) : Flow H E → Option H
  | .completion (.pending challengeID _) => some (ht challengeID)
  | .completion (.locked key _ _) | .completion (.verify key _ _)
  | .completion (.consume key _ _ _) => some key
  | _ => none

/-- The challenge is deleted and its session is not created yet. -/
def Flow.holdsChallenge : Flow H E → Bool
  | .completion (.clear _ _ _) | .completion (.establish _ _ _) => true
  | _ => false

/-- The action creates the session of a challenge. -/
def establishes (_ : Shared H E) (f : Flow H E) (choice : Choice) : Bool :=
  match f with
  | .completion (.establish _ _ _) => !choice.fails
  | _ => false

def challenges (ht : Token → H) : Redemption (Shared H E) (Flow H E) Choice H where
  stored sh key := (sh.challenges key).isSome = true
  names := Flow.completes ht
  holds := Flow.holdsChallenge
  uses := establishes

variable [DecidableEq H]

/-- The account flows, with a log of the key of its challenge for every session that a second
step establishes. -/
def completions (hs : Hashing E) (ht : Token → H) :
    Program (Recorded (Shared H E) H) (Tagged (Option H) (Flow H E)) Choice
      Event :=
  (challenges ht).logged (program hs ht)

/-- The deletion of a challenge succeeds and finds the challenge that the call has read; the ids
of new challenges are fresh. -/
def ConsumesStored (ht : Token → H)
    (pl : Pool (Recorded (Shared H E) H) (Tagged (Option H) (Flow H E))) :
    Move (Tagged (Option H) (Flow H E)) Choice Event → Prop
  | .act slot choice =>
    match pl.flows slot with
    | some ⟨_, .completion (.consume key _ _ _)⟩ =>
      choice.fails = false ∧ (pl.shared.state.challenges key).isSome = true
    | some ⟨_, .signin (.finish _ _ _ _)⟩ =>
      Redemption.Fresh pl (ht choice.token)
    | _ => True
  | _ => True

/-! ### What the calls do to challenges -/

variable {hs : Hashing E} {ht : Token → H} {sh : Shared H E}

variable {key : H}

theorem stored_of_apply {eff : Effect H E}
    (stored : ((sh.apply eff).challenges key).isSome = true) :
    (sh.challenges key).isSome = true ∨ ∃ ch, eff = .putChallenge key ch := by
  have kept : ∀ {removed : H}, ((sh.challenges.del removed) key).isSome = true →
      (sh.challenges key).isSome = true := by
    intro removed still
    obtain ⟨e, isEntry⟩ := Option.isSome_iff_exists.mp still
    rw [(ExpiringMap.del_apply_eq_some isEntry).2]
    rfl
  cases eff with
  | putChallenge written ch =>
    by_cases same : key = written
    · exact Or.inr ⟨ch, by rw [same]⟩
    · simp only [Shared.apply, ExpiringMap.set_apply_of_ne _ _ same] at stored
      exact Or.inl stored
  | delChallenge removed => exact Or.inl (kept stored)
  | refuse u pol ch =>
    simp only [Shared.apply, Shared.refuse] at stored
    split_ifs at stored
    · cases ch with
      | none => exact Or.inl stored
      | some removed => exact Or.inl (kept stored)
    · exact Or.inl stored
  | _ => exact Or.inl stored

variable {effs : List (Effect H E)}

theorem stored_of_applyAll (stored : ((sh.applyAll effs).challenges key).isSome = true) :
    (sh.challenges key).isSome = true ∨ ∃ ch, .putChallenge key ch ∈ effs := by
  induction effs generalizing sh with
  | nil => exact Or.inl stored
  | cons eff rest ih =>
    grind [stored_of_apply, Shared.applyAll]

omit [DecidableEq H] in
theorem AllIdle.puts_none (idle : AllIdle effs) (key : H) (ch : Challenge) :
    .putChallenge key ch ∉ effs :=
  fun mem => idle _ mem

variable {f : Flow H E}

/-- Only the end of a first step stores a challenge. -/
theorem FlowStep.puts {rest : Option (Flow H E)}
    (step : FlowStep hs ht sh f effs rest) {ch : Challenge}
    (puts : .putChallenge key ch ∈ effs) :
    ∃ input tn u roles, f = .signin (.finish input tn u roles) := by
  cases step with
  | signin step =>
    cases step with
    | challenged input tn u roles => exact ⟨input, tn, u, roles, rfl⟩
    | stops _ idle | admitted _ idle | counted _ _ _ idle | verified _ _ _ idle
    | verifiedWeak _ _ _ idle =>
      exact absurd puts (idle.puts_none key ch)
    | _ => simp at puts
  | completion step =>
    cases step with
    | stops _ idle | consumed _ _ _ _ idle | cleared _ _ _ idle =>
      exact absurd puts (idle.puts_none key ch)
    | _ => simp at puts
  | request step | recovery step | change step | admin step => cases step <;> simp at puts

theorem flowAct_puts {choice : Choice} {ch : Challenge}
    (puts : .putChallenge key ch ∈ (flowAct hs ht sh choice f).1) :
    ∃ input tn u roles, f = .signin (.finish input tn u roles) ∧ key = ht choice.token := by
  obtain ⟨input, tn, u, roles, rfl⟩ :=
    (flowAct_step hs ht sh choice f).puts puts
  refine ⟨input, tn, u, roles, rfl, ?_⟩
  simp only [flowAct, signinAct] at puts
  grind

omit [DecidableEq H] in
theorem EventStep.puts_none [DecidableEq H] {event : Event}
    (step : EventStep hs ht sh event effs) (key : H) (ch : Challenge) :
    .putChallenge key ch ∉ effs := by
  cases step <;> simp

/-! ### The obligations -/

/-- A call keeps its challenge until it has deleted it. -/
structure KeepsChallenge (ht : Token → H) (f next : Flow H E) : Prop where
  keeps : next.holdsChallenge = false →
    f.holdsChallenge = false ∧ next.completes ht = f.completes ht
  takes : next.holdsChallenge = true → f.holdsChallenge = false →
    ∃ key begun ch method, f = .completion (.consume key begun ch method)

theorem CompletionStep.keepsChallenge {f next : CompletionFlow H}
    (step : CompletionStep ht sh f effs (some next)) :
    KeepsChallenge ht (.completion f : Flow H E) (.completion next) := by
  cases step with
  | loaded | unlocked | verified => exact ⟨fun _ => ⟨rfl, rfl⟩, fun holds => nomatch holds⟩
  | consumed key begun ch method idle =>
    exact ⟨fun free => (nomatch free), fun _ _ => ⟨key, begun, ch, method, rfl⟩⟩
  | cleared => exact ⟨fun free => (nomatch free), fun _ free => nomatch free⟩

theorem FlowStep.keepsChallenge {next : Flow H E} (step : FlowStep hs ht sh f effs (some next)) :
    KeepsChallenge ht f next := by
  generalize isRest : some next = rest at step
  cases step with
  | completion step =>
    obtain ⟨inner, rfl, rfl⟩ := Option.map_eq_some_iff.mp isRest.symm
    exact step.keepsChallenge
  | signin | request | recovery | change | admin =>
    obtain ⟨inner, rfl, rfl⟩ := Option.map_eq_some_iff.mp isRest.symm
    exact ⟨fun _ => ⟨rfl, rfl⟩, fun holds => nomatch holds⟩

theorem obligations_of_consumesStored (hs : Hashing E) (ht : Token → H) :
    (challenges ht).Obligations (program hs ht) (ConsumesStored ht) where
  entry sh f begins := by
    rcases f with _ | f | _ | _ | _ | _
    · rfl
    · cases f <;> first | rfl | cases begins
    all_goals rfl
  stored pl slot held choice st rest key found permitted acted stored := by
    cases acted
    rcases stored_of_applyAll stored with pre | ⟨ch, puts⟩
    · exact Or.inl pre
    · obtain ⟨input, tn, u, roles, isFinish, rfl⟩ := flowAct_puts puts
      obtain ⟨tag, f⟩ := held
      grind [ConsumesStored]
  keeps st f choice post next acted free := by
    obtain ⟨effs, step, -⟩ := program_act acted
    exact step.keepsChallenge.keeps free
  takes pl slot held choice st next key found permitted acted holds free named := by
    obtain ⟨effs, step, -⟩ := program_act acted
    obtain ⟨stored, begun, ch, method, isConsume⟩ := step.keepsChallenge.takes holds free
    obtain ⟨tag, f⟩ := held
    subst isConsume
    cases Option.some.inj named
    simp only [ConsumesStored, found] at permitted
    cases acted
    refine ⟨permitted.2, ?_⟩
    simp [challenges, flowAct, completionAct, permitted.1, Shared.apply]
  uses st f choice post rest uses acted := by
    cases acted
    rcases f with _ | f | _ | _ | _ | _
    · cases uses
    · cases f <;> first | exact ⟨rfl, rfl⟩ | cases uses
    all_goals cases uses
  environment st event post key moved stored := by
    obtain ⟨effs, step, rfl⟩ := program_environment moved
    grind [stored_of_applyAll, EventStep.puts_none, challenges]

/-- Where every deletion finds the challenge its call has read, a challenge establishes at most
one session. -/
theorem challenge_establishes_one_session (hs : Hashing E) (ht : Token → H) (sh : Shared H E)
    (moves : List (Move (Tagged (Option H) (Flow H E)) Choice Event))
    (fin : Pool (Recorded (Shared H E) H) (Tagged (Option H) (Flow H E)))
    (permitted : EveryStep (completions hs ht).step (ConsumesStored ht) (Redemption.idle sh) moves)
    (reaches : run (completions hs ht).step (Redemption.idle sh) moves = some fin) :
    fin.shared.log.Nodup :=
  (obligations_of_consumesStored hs ht).nodup permitted reaches

namespace Sample

/-- An active user with a second factor, whose challenge is out. -/
def challenged : Shared (List UInt8) (List UInt8) :=
  { (pool true []).shared with
    challenges := (ExpiringMap.empty : ExpiringMap (List UInt8) Challenge).set 0 [7]
      ⟨1, 1, [], false, Tenant.defaultPolicy, oldPassword⟩ challengeTTL }

def completion : Tagged (Option (List UInt8)) (Flow (List UInt8) (List UInt8)) :=
  ⟨some [7], .completion (.pending [7] 0)⟩

/-- The outcome of a right code, or of a right answer of a security key. -/
def accepts (method : String) : Choice := { choice with secondFactor := some method }

/-- One completion after the other. -/
def inTurn :
    List (Move (Tagged (Option (List UInt8)) (Flow (List UInt8) (List UInt8))) Choice Event) :=
  .spawn 0 completion :: List.replicate 6 (.act 0 (accepts "otp"))
    ++ [.spawn 1 completion, .act 1 (accepts "hwk")]

/-- `CompleteMFA` and `CompleteWebAuthn` read the challenge before one of them deletes it. -/
def overlapping :
    List (Move (Tagged (Option (List UInt8)) (Flow (List UInt8) (List UInt8))) Choice Event) :=
  [.spawn 0 completion, .spawn 1 completion, .act 0 (accepts "otp"), .act 1 (accepts "hwk")]
    ++ List.replicate 5 (.act 0 (accepts "otp")) ++ List.replicate 5 (.act 1 (accepts "hwk"))

end Sample

theorem challenge_establishes_one_session_in_turn :
    ∃ fin, run (completions (Sample.hashing false) Sample.hashToken).step
        (Redemption.idle Sample.challenged) Sample.inTurn = some fin
      ∧ fin.shared.log = [[7]] ∧ fin.shared.log.Nodup := by
  have permitted : EveryStep (completions (Sample.hashing false) Sample.hashToken).step
      (ConsumesStored Sample.hashToken) (Redemption.idle Sample.challenged) Sample.inTurn := by
    iterate 4
      refine ⟨True.intro, fun _ taken => ?_⟩
      cases taken
    refine ⟨⟨rfl, rfl⟩, fun _ taken => ?_⟩
    cases taken
    iterate 4
      refine ⟨True.intro, fun _ taken => ?_⟩
      cases taken
    exact True.intro
  obtain ⟨fin, ran, logged⟩ : ∃ fin, run (completions (Sample.hashing false) Sample.hashToken).step
          (Redemption.idle Sample.challenged) Sample.inTurn = some fin
        ∧ fin.shared.log = [[7]] := ⟨_, rfl, rfl⟩
  exact ⟨fin, ran, logged, challenge_establishes_one_session _ _ _ _ _ permitted ran⟩

/-- Two completions that have both read a challenge establish a session each. -/
theorem overlapping_completions_share_challenge :
    ∃ fin, run (completions (Sample.hashing false) Sample.hashToken).step
        (Redemption.idle Sample.challenged) Sample.overlapping = some fin
      ∧ fin.shared.log = [[7], [7]] ∧ fin.shared.state.created.length = 2 :=
  ⟨_, rfl, rfl, rfl⟩

end TangraAuth.Accounts
