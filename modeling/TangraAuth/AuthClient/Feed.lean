import TangraAuth.AuthClient.Verifier
import TangraAuth.Library.Paging
import TangraAuth.Session.System

/-!
Contract: the revocation feed, from the committed rows to the verifier's memory.

Owns: a page of `RevokedSince`, the loop of `SyncRevocations` with its answers in
flight, the commits and the retention job beside it, and for which runs a sync
that returned nil has brought everything that was committed before it.

Does not own: `Watch`, which the verifier does not use. One clock is read by the
server and the verifier.
-/

namespace TangraAuth.AuthClient

open Library Store
open TangraAuth.Session (revocationRetention noFaults)

/-! ### The server -/

/-- The limit a request ends up with. -/
def pageLimit (requested : Nat) : Nat :=
  if requested = 0 ∨ requested > 1000 then 1000 else requested

/-- Where a cursor points; without one, the retention window. -/
def parseCursor (now : Int) : Option Int → Int
  | none => now - revocationRetention
  | some ts => ts

/-- The rows later than an instant. -/
def rowsSince (rs : List Revocation) (since : Int) : List Revocation :=
  rs.filter fun row => decide (since < row.ts)

structure Page where
  entries : List Revocation
  next : Int
deriving DecidableEq, Repr

/-- The answer to a request, for one order the database may list the rows in. -/
def revokedSince (limit : Nat) (since : Int) (order : List Revocation) : Page where
  entries := order.take (pageLimit limit)
  next := nextKey Revocation.ts since (order.take (pageLimit limit))

/-! ### The sync -/

/-- Pages read in one sync at most. -/
def maxPages : Nat := 100

/-- A `SyncRevocations` call between two of its steps. `begun` are the rows committed when the
call began; the code does not read it. -/
inductive Sync where
  | idle
  | requesting (begun : List Revocation) (cursor : Option Int) (iteration : Nat)
  | answered (begun : List Revocation) (cursor : Option Int) (iteration : Nat) (page : Page)
  | finishing (begun : List Revocation)
  | returned (begun : List Revocation)
deriving DecidableEq

structure Feed where
  now : Int
  limit : Nat
  rows : List Revocation
  verifier : Verifier
  sync : Sync

/-- The page is kept, the cursor moved, and the expired entries forgotten. -/
def Verifier.take (vf : Verifier) (now : Int) (page : Page) : Verifier :=
  Verifier.forgetExpired
    { vf with entries := vf.entries ++ page.entries, cursor := some page.next } now

inductive FeedMove where
  | begin
  | answer (order : List Revocation)
  | fail
  | take
  | finish
  | commit (row : Revocation)
  | retire (cut : Int)
  | advance (elapsed : Nat)

def Feed.step (feed : Feed) : FeedMove → Option Feed
  | .begin =>
    match feed.sync with
    | .idle | .returned _ =>
      some { feed with sync := .requesting feed.rows feed.verifier.cursor 0 }
    | _ => none
  | .answer order =>
    match feed.sync with
    | .requesting begun cursor iteration =>
      let since := parseCursor feed.now cursor
      if Ordered Revocation.ts (rowsSince feed.rows since) order then
        some { feed with
          sync := .answered begun cursor iteration (revokedSince feed.limit since order) }
      else none
    | _ => none
  | .fail =>
    match feed.sync with
    | .requesting _ _ _ => some { feed with sync := .idle }
    | _ => none
  | .take =>
    match feed.sync with
    | .answered begun cursor iteration page =>
      some { feed with
        verifier := feed.verifier.take feed.now page
        sync :=
          if some page.next = cursor ∨ page.entries = [] then .finishing begun
          else if iteration + 1 < maxPages then
            .requesting begun (some page.next) (iteration + 1)
          else .finishing begun }
    | _ => none
  | .finish =>
    match feed.sync with
    | .finishing begun =>
      some { feed with
        verifier := { feed.verifier with syncedAt := some feed.now }
        sync := .returned begun }
    | _ => none
  | .commit row => some { feed with rows := feed.rows ++ [row] }
  | .retire cut =>
    -- The retention job drops only rows that are past the retention.
    if cut ≤ feed.now - revocationRetention then
      some { feed with rows := feed.rows.filter fun row => decide (cut ≤ row.ts) }
    else none
  | .advance elapsed => some { feed with now := feed.now + elapsed }

/-! ### What a sync has brought -/

/-- Neither the feed nor the verifier may have let go of the row yet. -/
def Feed.Retained (feed : Feed) (row : Revocation) : Prop :=
  feed.now - revocationRetention < row.ts ∧ feed.now - feed.verifier.config.retention < row.ts

/-- The verifier holds every retained row that was committed before the sync that returned
last began. -/
def Feed.Current (feed : Feed) : Prop :=
  ∀ begun, feed.sync = .returned begun → ∀ row ∈ begun, feed.Retained row →
    row ∈ feed.verifier.entries

/-- Where the next request will go on. -/
def Feed.horizon (feed : Feed) : Option Int :=
  match feed.sync with
  | .answered _ _ _ page => some page.next
  | _ => feed.verifier.cursor

/-- The rows that have arrived or are on their way. -/
def Feed.sent (feed : Feed) : List Revocation :=
  match feed.sync with
  | .answered _ _ _ page => feed.verifier.entries ++ page.entries
  | _ => feed.verifier.entries

/-- Rows are committed in the order of their dates as far as the feed was read, pages do not
end between rows of one date, and the feed is read to its end within the allowed pages. -/
def Smooth (feed : Feed) : FeedMove → Prop
  | .commit row => ∀ horizon, feed.horizon = some horizon → horizon < row.ts
  | .answer order => WholeKeys Revocation.ts (pageLimit feed.limit) order
  | .take => ∀ begun cursor page, feed.sync = .answered begun cursor (maxPages - 1) page →
      page.entries = [] ∨ ∀ row ∈ feed.rows, row.ts ≤ page.next
  | _ => True

/-! ### Every run -/

/-- What holds at each point of a sync, beside what was delivered. -/
def StageComplete (feed : Feed) : Sync → Prop
  | .idle => True
  | .requesting begun cursor iteration =>
    cursor = feed.verifier.cursor ∧ iteration < maxPages
      ∧ ∀ row ∈ begun, feed.Retained row → row ∈ feed.rows
  | .answered begun cursor iteration page =>
    iteration < maxPages ∧ (∀ row ∈ begun, feed.Retained row → row ∈ feed.rows)
      ∧ (page.entries ≠ [] → ∀ since, cursor = some since → since < page.next)
      ∧ (page.entries = [] → ∀ row ∈ begun, feed.Retained row → row.ts ≤ page.next)
  | .finishing begun | .returned begun =>
    ∀ row ∈ begun, feed.Retained row → row ∈ feed.verifier.entries

/-- Every retained row the cursor has passed has arrived or is on its way. -/
structure Complete (feed : Feed) : Prop where
  delivered : ∀ row ∈ feed.rows, feed.Retained row → ∀ horizon, feed.horizon = some horizon →
    row.ts ≤ horizon → row ∈ feed.sent
  stage : StageComplete feed feed.sync

theorem pageLimit_pos (requested : Nat) : 0 < pageLimit requested := by
  unfold pageLimit
  split_ifs <;> omega

variable {since : Int} {row : Revocation} {order begun : List Revocation} {iteration : Nat}

theorem mem_rowsSince {rs : List Revocation} :
    row ∈ rowsSince rs since ↔ row ∈ rs ∧ since < row.ts := by
  simp [rowsSince]

theorem since_lt_of_mem_page {rs : List Revocation} {limit : Nat}
    (ordered : Ordered Revocation.ts (rowsSince rs since) order) :
    ∀ row ∈ order.take limit, since < row.ts := by
  intro row mem
  have listed := ordered.1.mem_iff.mp (List.mem_of_mem_take mem)
  exact (mem_rowsSince.mp listed).2

theorem le_since_of_page_empty {rs : List Revocation} {limit : Nat}
    (ordered : Ordered Revocation.ts (rowsSince rs since) order) (positive : 0 < limit)
    (empty : order.take limit = []) (mem : row ∈ rs) : row.ts ≤ since := by
  by_contra later
  have listed : row ∈ order :=
    ordered.1.mem_iff.mpr (mem_rowsSince.mpr ⟨mem, not_le.mp later⟩)
  rcases List.take_eq_nil_iff.mp empty with none | noRows
  · omega
  · rw [noRows] at listed
    cases listed

theorem Complete.answer {feed : Feed} {cursor : Option Int} (complete : Complete feed)
    (isSync : feed.sync = .requesting begun cursor iteration)
    (ordered : Ordered Revocation.ts (rowsSince feed.rows (parseCursor feed.now cursor)) order)
    (whole : WholeKeys Revocation.ts (pageLimit feed.limit) order) :
    Complete { feed with
      sync := .answered begun cursor iteration
        (revokedSince feed.limit (parseCursor feed.now cursor) order) } := by
  have stage := complete.stage
  rw [isSync] at stage
  obtain ⟨isCursor, within, committed⟩ := stage
  refine ⟨?_, within, committed, ?_, ?_⟩
  · intro row mem retained horizon isHorizon passed
    cases isHorizon
    apply List.mem_append.mpr
    by_cases later : parseCursor feed.now cursor < row.ts
    · right
      exact mem_page_of_le_nextKey ordered whole (mem_rowsSince.mpr ⟨mem, later⟩) later passed
    · left
      cases cursor with
      | none => exact absurd retained.1 later
      | some since =>
        have known : feed.horizon = some since := by
          rw [Feed.horizon, isSync]
          exact isCursor.symm
        have arrived := complete.delivered row mem retained since known (not_lt.mp later)
        rw [Feed.sent, isSync] at arrived
        exact arrived
  · intro filled since isSince
    subst isSince
    exact since_lt_nextKey (since_lt_of_mem_page ordered) filled
  · intro empty row mem retained
    have isEmpty : order.take (pageLimit feed.limit) = [] := empty
    show row.ts ≤ nextKey Revocation.ts _ (order.take (pageLimit feed.limit))
    rw [isEmpty, nextKey_nil]
    exact le_since_of_page_empty ordered (pageLimit_pos feed.limit) isEmpty
      (committed row mem retained)

theorem Complete.take {feed : Feed} {cursor : Option Int} {page : Page} (complete : Complete feed)
    (isSync : feed.sync = .answered begun cursor iteration page)
    (capped : iteration = maxPages - 1 →
      page.entries = [] ∨ ∀ row ∈ feed.rows, row.ts ≤ page.next) :
    Complete { feed with
      verifier := feed.verifier.take feed.now page
      sync :=
        if some page.next = cursor ∨ page.entries = [] then .finishing begun
        else if iteration + 1 < maxPages then .requesting begun (some page.next) (iteration + 1)
        else .finishing begun } := by
  have stage := complete.stage
  rw [isSync] at stage
  obtain ⟨within, committed, advances, drained⟩ := stage
  -- Whatever the cursor has passed is kept, as long as it is retained.
  have kept : ∀ row ∈ feed.rows, feed.Retained row → row.ts ≤ page.next →
      row ∈ (feed.verifier.take feed.now page).entries := by
    intro row mem retained passed
    have isHorizon : feed.horizon = some page.next := by rw [Feed.horizon, isSync]
    have sent := complete.delivered row mem retained page.next isHorizon passed
    rw [Feed.sent, isSync] at sent
    exact mem_forgetExpired.mpr ⟨sent, retained.2⟩
  have finished : (∀ row ∈ begun, feed.Retained row → row.ts ≤ page.next) →
      Complete { feed with
        verifier := feed.verifier.take feed.now page, sync := .finishing begun } := by
    intro passed
    refine ⟨?_, fun row mem retained =>
      kept row (committed row mem retained) retained (passed row mem retained)⟩
    intro row mem retained horizon isHorizon passed
    cases isHorizon
    exact kept row mem retained passed
  by_cases last : some page.next = cursor ∨ page.entries = []
  · rw [if_pos last]
    apply finished
    apply drained
    grind
  · rw [if_neg last]
    by_cases more : iteration + 1 < maxPages
    · rw [if_pos more]
      refine ⟨?_, rfl, more, committed⟩
      intro row mem retained horizon isHorizon passed
      cases isHorizon
      exact kept row mem retained passed
    grind

theorem Feed.Retained.of_advance {feed : Feed} {elapsed : Nat}
    (retained : Feed.Retained { feed with now := feed.now + elapsed } row) : feed.Retained row := by
  have inFeed : feed.now + elapsed - revocationRetention < row.ts := retained.1
  have inMemory : feed.now + elapsed - feed.verifier.config.retention < row.ts := retained.2
  exact ⟨by omega, by omega⟩

/-- A step that neither moves the horizon nor delivers rows. -/
theorem Complete.undelivered {feed next : Feed} (complete : Complete feed)
    (rs : ∀ row ∈ next.rows, row ∈ feed.rows)
    (retained : ∀ row, next.Retained row → feed.Retained row)
    (horizon : next.horizon = feed.horizon) (sent : next.sent = feed.sent)
    (stage : StageComplete next next.sync) : Complete next := by
  refine ⟨?_, stage⟩
  grind [delivered]

/-- The stage only looks at the rows it has to account for, the cursor and the memory. -/
theorem StageComplete.mono {feed next : Feed} {sync : Sync} (complete : StageComplete feed sync)
    (retained : ∀ row, next.Retained row → feed.Retained row)
    (kept : ∀ row ∈ feed.rows, next.Retained row → row ∈ next.rows)
    (cursor : next.verifier.cursor = feed.verifier.cursor)
    (entries : next.verifier.entries = feed.verifier.entries) : StageComplete next sync := by
  cases sync with
  | idle => exact True.intro
  | requesting begun held iteration =>
    obtain ⟨isCursor, within, committed⟩ := complete
    refine ⟨isCursor.trans cursor.symm, within, ?_⟩
    grind
  | answered begun held iteration page | finishing begun | returned begun => grind [StageComplete]

theorem step_preserves_complete (feed : Feed) (move : FeedMove) (next : Feed)
    (complete : Complete feed) (smooth : Smooth feed move)
    (taken : feed.step move = some next) : Complete next := by
  cases move with
  | begin =>
    simp only [Feed.step] at taken
    have began : ∀ next : Feed, feed.horizon = feed.verifier.cursor →
        feed.sent = feed.verifier.entries →
        next = { feed with sync := .requesting feed.rows feed.verifier.cursor 0 } →
        Complete next := by
      rintro next horizon sent rfl
      exact complete.undelivered (fun _ mem => mem) (fun _ still => still) horizon.symm
        sent.symm ⟨rfl, by decide, fun _ mem _ => mem⟩
    grind [Feed.horizon.eq_1, Feed.sent.eq_1]
  | answer order =>
    grind [Complete.answer, Smooth, Feed.step]
  | fail =>
    simp only [Feed.step] at taken
    split at taken
    · rename_i isSync
      cases taken
      exact complete.undelivered (fun _ mem => mem) (fun _ still => still)
        (by rw [Feed.horizon, Feed.horizon, isSync]) (by rw [Feed.sent, Feed.sent, isSync])
        True.intro
    · cases taken
  | take =>
    simp only [Feed.step] at taken
    split at taken
    · rename_i begun cursor iteration page isSync
      cases taken
      apply complete.take isSync
      rintro rfl
      exact smooth begun cursor page isSync
    · cases taken
  | finish =>
    simp only [Feed.step] at taken
    split at taken
    · rename_i begun isSync
      cases taken
      have stage := complete.stage
      rw [isSync] at stage
      exact complete.undelivered (fun _ mem => mem) (fun _ still => still)
        (by rw [Feed.horizon, Feed.horizon, isSync]) (by rw [Feed.sent, Feed.sent, isSync])
        stage
    · cases taken
  | commit row =>
    cases taken
    refine ⟨?_, complete.stage.mono (fun _ still => still)
      (fun _ mem _ => List.mem_append_left _ mem) rfl rfl⟩
    intro other mem retained horizon isHorizon passed
    rcases List.mem_append.mp mem with old | new
    · exact complete.delivered other old retained horizon isHorizon passed
    · cases List.mem_singleton.mp new
      have later := smooth horizon isHorizon
      omega
  | retire cut =>
    simp only [Feed.step] at taken
    split_ifs at taken with old
    cases taken
    refine complete.undelivered (fun _ mem => List.mem_of_mem_filter mem)
      (fun _ still => still) rfl rfl ?_
    refine complete.stage.mono (fun _ still => still) ?_ rfl rfl
    intro row mem retained
    have dated : feed.now - revocationRetention < row.ts := retained.1
    grind
  | advance elapsed =>
    cases taken
    refine complete.undelivered (fun _ mem => mem) (fun _ still => still.of_advance) rfl rfl ?_
    exact complete.stage.mono (fun _ still => still.of_advance) (fun _ mem _ => mem) rfl rfl

/-- A verifier that has not read the feed. -/
def Feed.initial (now : Int) (limit : Nat) (rs : List Revocation) (cfg : Config) : Feed where
  now := now
  limit := limit
  rows := rs
  verifier := newVerifier cfg
  sync := .idle

theorem complete_initial (now : Int) (limit : Nat) (rs : List Revocation) (cfg : Config) :
    Complete (Feed.initial now limit rs cfg) := by
  refine ⟨?_, True.intro⟩
  intro row mem retained horizon isHorizon
  cases isHorizon

theorem Complete.current {feed : Feed} (complete : Complete feed) : feed.Current := by
  intro begun isSync
  have stage := complete.stage
  rw [isSync] at stage
  exact stage

/-- In every run whose steps are smooth the verifier holds, whenever a sync has returned, all
the retained rows committed before that sync began. -/
theorem sync_holds_committed_rows (now : Int) (limit : Nat) (rs : List Revocation)
    (cfg : Config) {moves : List FeedMove} {fin : Feed}
    (smooth : EveryStep Feed.step Smooth (Feed.initial now limit rs cfg) moves)
    (reaches : run Feed.step (Feed.initial now limit rs cfg) moves = some fin) :
    fin.Current := by
  apply Complete.current
  exact run_preserves step_preserves_complete (complete_initial now limit rs cfg) smooth reaches

namespace Sample

def config : Config := ⟨none, none, 0, 0⟩

/-- The two rows of one `RevokeUser` call that keeps a third session: one date for both. -/
def first : Revocation := ⟨5, .session 1, 1, .passwordChanged⟩
def second : Revocation := ⟨5, .session 2, 1, .passwordChanged⟩

/-- The feed after sign-ins of one user and a password change from the third session. -/
def published : List Revocation :=
  ((run (TangraAuth.Session.step fun secret : TangraAuth.Session.Secret => secret)
    (TangraAuth.Session.initial 5 (fun _ => some ⟨.customer, .active, Tenant.defaultPolicy⟩)
      (fun _ _ => []) (fun _ _ => none))
    [.create noFaults 1 7 [] [] 1 [1], .create noFaults 1 7 [] [] 2 [2],
      .create noFaults 1 7 [] [] 3 [3],
      .revokeUser noFaults 1 7 .passwordChanged (some 3)]).map fun st =>
        st.feed).getD []

/-- One sync that reads the given pages to the end. -/
def sync (pages : List (List Revocation)) : List FeedMove :=
  .begin :: (pages.flatMap fun order => [.answer order, .take]) ++ [.finish]

/-- The second row is committed between two syncs. -/
def overtaken : List FeedMove :=
  .commit first :: sync [[first], []] ++ .commit second :: sync [[]]

/-- The first row alone, found and held. -/
def alone : List FeedMove := .commit first :: sync [[first], []]

end Sample

theorem single_row_is_held :
    EveryStep Feed.step Smooth (Feed.initial 10 0 [] Sample.config) Sample.alone
      ∧ ∃ fin, run Feed.step (Feed.initial 10 0 [] Sample.config) Sample.alone = some fin
        ∧ fin.Current := by
  have smooth : EveryStep Feed.step Smooth (Feed.initial 10 0 [] Sample.config) Sample.alone := by
    iterate 7
      refine ⟨?_, ?_⟩
      · first
        | exact True.intro
        | (intro _ isHorizon; cases isHorizon; done)
        | (intro _ _ _ isSync; cases isSync)
      intro next taken
      cases taken
    trivial
  obtain ⟨fin, reaches⟩ :
      ∃ fin, run Feed.step (Feed.initial 10 0 [] Sample.config) Sample.alone = some fin :=
    ⟨_, rfl⟩
  exact ⟨smooth, fin, reaches, sync_holds_committed_rows 10 0 [] Sample.config smooth reaches⟩

/-- Both rows come from one call and carry its date. The first is read before the second is
committed, and then the cursor is past the second, which is never read. -/
theorem row_committed_behind_cursor_is_missed : Sample.published = [Sample.first, Sample.second]
      ∧ ∃ fin, run Feed.step (Feed.initial 10 0 [] Sample.config) Sample.overtaken = some fin
        ∧ ¬ fin.Current := by
  refine ⟨rfl, _, rfl, ?_⟩
  intro current
  have held := current _ rfl Sample.second (by decide) ⟨by decide, by decide⟩
  revert held
  decide

end TangraAuth.AuthClient
