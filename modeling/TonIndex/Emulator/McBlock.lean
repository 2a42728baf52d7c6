import TonIndex.Emulator.Process

/-!
`McBlockEmulator` as an actor: it waits on the parsers of the new shard blocks,
starts one `TraceTailEmulator` per trace id, and hears back from each trace
through the interface detector and the trace processor. Every handler answers
one operation it started, so `tasks` is what the actor waits on.
-/

set_option autoImplicit false

namespace TonIndex

namespace McBlockEmulator

/-- An operation `McBlockEmulator` started and waits on. -/
inductive Task
  /-- A `BlockParser` on the block at this index of `shard_blocks_diff_`. -/
  | parse (blk : Nat)
  /-- A `TraceTailEmulator` rooted at `tx`, for the trace id `traceId`. -/
  | emulate (tx : TransactionInfo) (traceId : Bits256)
  /-- A `TraceInterfaceDetector` on the emulated trace. -/
  | detect (traceId : Bits256)
  /-- `trace_processor_` on the trace with interfaces. -/
  | insert (traceId : Bits256)
  deriving DecidableEq

/-- `McBlockEmulator`'s members, with the operations in flight. `promiseSets`
counts the calls of `set_value` and `set_error` on `promise_`. -/
structure State where
  blocksLeftToParse : Nat
  txs : List TransactionInfo
  interblockTraceIds : StdMap Bits256 Bits256
  txByInMsgHash : StdMap Bits256 TransactionInfo
  traceIdsInProgress : List Bits256
  tracesCnt : Nat
  promise : Option (Except Status Unit)
  promiseSets : Nat
  stopped : Bool
  tasks : List Task

def startTrace (acc : List Bits256 × List Task) (tx : TransactionInfo) : List Bits256 × List Task :=
  match tx.initialMsgHash with
  | none => acc
  | some traceId =>
      if traceId ∈ acc.1 then acc else (acc.1 ++ [traceId], acc.2 ++ [.emulate tx traceId])

/-- `emulate_traces` over `txs_`: a trace is started for the first transaction
of each trace id not yet in progress. -/
def emulateTraces (inProgress : List Bits256) (txs : List TransactionInfo) :
    List Bits256 × List Task :=
  txs.foldl startTrace (inProgress, [])

namespace State

def init (blocks : Nat) (interblock : StdMap Bits256 Bits256) : State :=
  ⟨blocks, [], interblock, StdMap.empty, [], 0, none, 0, false, (List.range blocks).map .parse⟩

def finish (s : State) (r : Except Status Unit) : State :=
  {s with promise := s.promise.getD r, promiseSets := s.promiseSets + 1, stopped := true}

def processAndEmulate (s : State) (sorted : List TransactionInfo) : State :=
  let out := McBlockEmulator.processTxs s.interblockTraceIds sorted
  let started := emulateTraces s.traceIdsInProgress out.txs
  {s with txs := out.txs, interblockTraceIds := out.interblockTraceIds,
          txByInMsgHash := out.txByInMsgHash, traceIdsInProgress := started.1,
          tasks := s.tasks ++ started.2}

/-- `block_parsed`: the block's transactions join `txs_`; after the last block,
`process_txs` runs on them in the order `sorted`. -/
def blockParsed (s : State) (blk : Nat) (txs sorted : List TransactionInfo) : State :=
  let s := {s with txs := s.txs ++ txs, blocksLeftToParse := s.blocksLeftToParse - 1,
                   tasks := s.tasks.erase (.parse blk)}
  if s.blocksLeftToParse = 0 then s.processAndEmulate sorted else s

/-- `trace_finished`: the trace id leaves the set, and the last one sets the promise. -/
def traceFinished (s : State) (traceId : Bits256) : State :=
  let s := {s with traceIdsInProgress := s.traceIdsInProgress.erase traceId,
                   tracesCnt := s.tracesCnt + 1, tasks := s.tasks.erase (.insert traceId)}
  if s.traceIdsInProgress = [] then s.finish (.ok ()) else s

end State

/-- One handler of `McBlockEmulator`, run on the answer of an operation in
flight; nothing runs after `stop()`. -/
inductive McStep : State → State → Prop
  | blockParsed {s : State} (blk : Nat) (txs sorted : List TransactionInfo) (live : s.stopped = false)
      (pending : .parse blk ∈ s.tasks) (hperm : sorted.Perm (s.txs ++ txs))
      (hsort : sorted.Pairwise fun a b => a.lt ≤ b.lt) :
      McStep s (s.blockParsed blk txs sorted)
  | parseError {s : State} (blk : Nat) (e : Status) (live : s.stopped = false)
      (pending : .parse blk ∈ s.tasks) :
      McStep s ({s with tasks := s.tasks.erase (.parse blk)}.finish (.error e))
  | traceError {s : State} (tx : TransactionInfo) (traceId : Bits256) (live : s.stopped = false)
      (pending : .emulate tx traceId ∈ s.tasks) :
      McStep s {s with traceIdsInProgress := s.traceIdsInProgress.erase traceId,
                       tasks := s.tasks.erase (.emulate tx traceId)}
  | traceReceived {s : State} (tx : TransactionInfo) (traceId : Bits256) (live : s.stopped = false)
      (pending : .emulate tx traceId ∈ s.tasks) :
      McStep s {s with tasks := s.tasks.erase (.emulate tx traceId) ++ [.detect traceId]}
  | traceInterfacesError {s : State} (traceId : Bits256) (live : s.stopped = false)
      (pending : .detect traceId ∈ s.tasks) :
      McStep s {s with traceIdsInProgress := s.traceIdsInProgress.erase traceId,
                       tasks := s.tasks.erase (.detect traceId)}
  | traceEmulated {s : State} (traceId : Bits256) (live : s.stopped = false)
      (pending : .detect traceId ∈ s.tasks) :
      McStep s {s with tasks := s.tasks.erase (.detect traceId) ++ [.insert traceId]}
  | traceFinished {s : State} (traceId : Bits256) (live : s.stopped = false)
      (pending : .insert traceId ∈ s.tasks) :
      McStep s (s.traceFinished traceId)

inductive McReachable : State → Prop
  | init (blocks : Nat) (interblock : StdMap Bits256 Bits256) : McReachable (State.init blocks interblock)
  | step {s s' : State} : McReachable s → McStep s s' → McReachable s'

def PromiseInv (s : State) : Prop :=
  (s.stopped = false → s.promiseSets = 0 ∧ s.promise = none) ∧ s.promiseSets ≤ 1

theorem State.finish_inv {s : State} (h : s.promiseSets = 0) (r : Except Status Unit) :
    PromiseInv (s.finish r) := by
  simp [PromiseInv, State.finish, h]

theorem McStep.promiseInv {s s' : State} (h : McStep s s') (hi : PromiseInv s) : PromiseInv s' := by
  have h0 := fun (live : s.stopped = false) => (hi.1 live).1
  cases h with
  | blockParsed blk txs sorted live =>
    simp only [State.blockParsed]; split <;> exact ⟨fun _ => hi.1 live, hi.2⟩
  | parseError blk e live => exact State.finish_inv (h0 live) _
  | traceFinished traceId live =>
    simp only [State.traceFinished]; split
    · exact State.finish_inv (h0 live) _
    · exact ⟨fun _ => hi.1 live, hi.2⟩
  | _ => exact ⟨fun _ => hi.1 ‹_›, hi.2⟩

theorem McReachable.promiseInv {s : State} (h : McReachable s) : PromiseInv s := by
  induction h with
  | init => simp [PromiseInv, State.init]
  | step _ hs ih => exact hs.promiseInv ih

/-- `promise_` is set at most once in every run. -/
theorem promiseSets_le_one {s : State} (h : McReachable s) : s.promiseSets ≤ 1 :=
  h.promiseInv.2

theorem McStep.tasks_ne_nil {s s' : State} (h : McStep s s') : s.tasks ≠ [] := by
  cases h <;> exact List.ne_nil_of_mem ‹_›

inductive McAction
  | blockParsed (blk : Nat) (txs : List TransactionInfo)
  | parseError (blk : Nat) (e : Status)
  | traceError (tx : TransactionInfo) (traceId : Bits256)
  | traceReceived (tx : TransactionInfo) (traceId : Bits256)
  | traceInterfacesError (traceId : Bits256)
  | traceEmulated (traceId : Bits256)
  | traceFinished (traceId : Bits256)

def McAction.run (s : State) : McAction → Option State
  | .blockParsed blk txs =>
      if s.stopped = false ∧ .parse blk ∈ s.tasks then
        some (s.blockParsed blk txs (sortByLt (s.txs ++ txs))) else none
  | .parseError blk e =>
      if s.stopped = false ∧ .parse blk ∈ s.tasks then
        some ({s with tasks := s.tasks.erase (.parse blk)}.finish (.error e)) else none
  | .traceError tx traceId =>
      if s.stopped = false ∧ .emulate tx traceId ∈ s.tasks then
        some {s with traceIdsInProgress := s.traceIdsInProgress.erase traceId,
                     tasks := s.tasks.erase (.emulate tx traceId)} else none
  | .traceReceived tx traceId =>
      if s.stopped = false ∧ .emulate tx traceId ∈ s.tasks then
        some {s with tasks := s.tasks.erase (.emulate tx traceId) ++ [.detect traceId]} else none
  | .traceInterfacesError traceId =>
      if s.stopped = false ∧ .detect traceId ∈ s.tasks then
        some {s with traceIdsInProgress := s.traceIdsInProgress.erase traceId,
                     tasks := s.tasks.erase (.detect traceId)} else none
  | .traceEmulated traceId =>
      if s.stopped = false ∧ .detect traceId ∈ s.tasks then
        some {s with tasks := s.tasks.erase (.detect traceId) ++ [.insert traceId]} else none
  | .traceFinished traceId =>
      if s.stopped = false ∧ .insert traceId ∈ s.tasks then some (s.traceFinished traceId) else none

theorem McAction.run_step {s s' : State} {a : McAction} (h : a.run s = some s') : McStep s s' := by
  cases a <;> simp only [McAction.run] at h <;> split at h <;> cases h <;>
    rename_i hg <;> first
      | exact .blockParsed _ _ _ hg.1 hg.2 (sortByLt_perm _) (sortByLt_sorted _)
      | exact .parseError _ _ hg.1 hg.2
      | exact .traceError _ _ hg.1 hg.2
      | exact .traceReceived _ _ hg.1 hg.2
      | exact .traceInterfacesError _ hg.1 hg.2
      | exact .traceEmulated _ hg.1 hg.2
      | exact .traceFinished _ hg.1 hg.2

def State.runActions : State → List McAction → Option State
  | s, [] => some s
  | s, a :: as => (a.run s).bind fun s' => s'.runActions as

theorem McReachable.runActions {s s' : State} {as : List McAction} (hs : McReachable s)
    (h : s.runActions as = some s') : McReachable s' := by
  induction as generalizing s with
  | nil => cases h; exact hs
  | cons a as ih =>
    simp only [State.runActions, Option.bind_eq_some] at h
    obtain ⟨s₁, h₁, h₂⟩ := h
    exact ih (hs.step (McAction.run_step h₁)) h₂

def oneTraceTx : TransactionInfo :=
  ⟨⟨0, Bits256.ofByte 20⟩, Bits256.ofByte 30, 1, Bits256.ofByte 41, true, [], none⟩

def oneTraceId : Bits256 := Bits256.ofByte 41

def failedTraceRun : List McAction :=
  [.blockParsed 0 [oneTraceTx], .traceError {oneTraceTx with initialMsgHash := some oneTraceId} oneTraceId]

def State.runOneBlock (as : List McAction) : State :=
  ((State.init 1 StdMap.empty).runActions as).getD (State.init 1 StdMap.empty)

theorem runOneBlock_reachable (as : List McAction)
    (h : ((State.init 1 StdMap.empty).runActions as).isSome = true) :
    McReachable (State.runOneBlock as) := by
  obtain ⟨s, hs⟩ := Option.isSome_iff_exists.1 h
  have e : State.runOneBlock as = s := by simp [State.runOneBlock, hs]
  exact e ▸ McReachable.runActions (.init _ _) hs

/-- Runs that end with nothing in flight and the promise never set, after which no
handler can run: the one trace of the block fails, or the block has no transaction. -/
theorem block_promise_unset_when_quiescent :
    McReachable (State.runOneBlock failedTraceRun) ∧ (State.runOneBlock failedTraceRun).tasks = [] ∧
      (State.runOneBlock failedTraceRun).promise = none ∧
      (∀ s, ¬ McStep (State.runOneBlock failedTraceRun) s) ∧
      McReachable (State.runOneBlock [.blockParsed 0 []]) ∧ (State.runOneBlock [.blockParsed 0 []]).tasks = [] ∧
      (State.runOneBlock [.blockParsed 0 []]).promise = none ∧
      ∀ s, ¬ McStep (State.runOneBlock [.blockParsed 0 []]) s :=
  ⟨runOneBlock_reachable _ (by decide), rfl, rfl, fun _ h => h.tasks_ne_nil rfl,
    runOneBlock_reachable _ (by decide), rfl, rfl, fun _ h => h.tasks_ne_nil rfl⟩

end McBlockEmulator

end TonIndex
