import TonIndex.Emulator.McBlock
import Mathlib.Algebra.BigOperators.Group.List
import Mathlib.Algebra.Order.Ring.Nat

set_option autoImplicit false

namespace TonIndex

namespace McBlockEmulator

namespace Task

def traceId? : Task → Option Bits256
  | .parse _ => none
  | .emulate _ traceId => some traceId
  | .detect traceId => some traceId
  | .insert traceId => some traceId

def isParse : Task → Bool
  | .parse _ => true
  | _ => false

def traceIds (l : List Task) : List Bits256 := l.filterMap traceId?

def parsers (l : List Task) : Nat := l.countP isParse

@[simp] theorem traceIds_nil : traceIds [] = [] := rfl

@[simp] theorem traceIds_append (l l' : List Task) : traceIds (l ++ l') = traceIds l ++ traceIds l' := by
  simp [traceIds]

@[simp] theorem traceIds_singleton (t : Task) : traceIds [t] = t.traceId?.toList := by
  cases t <;> rfl

@[simp] theorem parsers_append (l l' : List Task) : parsers (l ++ l') = parsers l + parsers l' := by
  simp [parsers]

@[simp] theorem parsers_singleton (t : Task) : parsers [t] = if t.isParse then 1 else 0 := by
  cases t <;> rfl

theorem isParse_of_traceId? {t : Task} {id : Bits256} (ht : t.traceId? = some id) : t.isParse = false := by
  cases t <;> simp_all [traceId?, isParse]

theorem traceIds_erase {l : List Task} {t : Task} {id : Bits256} (h : t ∈ l) (ht : t.traceId? = some id) :
    (traceIds l).Perm (id :: traceIds (l.erase t)) := by
  simpa [traceIds, ht] using (List.perm_cons_erase h).filterMap traceId?

theorem traceIds_erase_parse {l : List Task} {blk : Nat} (h : .parse blk ∈ l) :
    (traceIds l).Perm (traceIds (l.erase (.parse blk))) := by
  simpa [traceIds, traceId?] using (List.perm_cons_erase h).filterMap traceId?

theorem parsers_erase {l : List Task} {t : Task} (h : t ∈ l) :
    parsers l = parsers (l.erase t) + if t.isParse then 1 else 0 := by
  simpa [parsers, List.countP_cons] using (List.perm_cons_erase h).countP_eq isParse

theorem eq_nil_of_parsers_traceIds {l : List Task} (hp : parsers l = 0) (ht : traceIds l = []) : l = [] := by
  cases l with
  | nil => rfl
  | cons t l => cases t <;> simp [parsers, traceIds, isParse, traceId?] at hp ht

end Task

def Started (acc : List Bits256 × List Task) : Prop :=
  Task.traceIds acc.2 = acc.1 ∧ acc.1.Nodup

theorem startTrace_started {acc : List Bits256 × List Task} (h : Started acc) (tx : TransactionInfo) :
    Started (startTrace acc tx) := by
  unfold McBlockEmulator.startTrace
  split
  · exact h
  · split
    · exact h
    · refine ⟨by simp [h.1, Task.traceId?], h.2.append (List.nodup_singleton _) ?_⟩
      simpa [List.disjoint_singleton] using ‹_›

theorem foldl_startTrace_started {acc : List Bits256 × List Task} (h : Started acc)
    (txs : List TransactionInfo) : Started (txs.foldl startTrace acc) := by
  induction txs generalizing acc with
  | nil => exact h
  | cons tx txs ih => exact ih (startTrace_started h tx)

theorem emulateTraces_started (txs : List TransactionInfo) : Started (emulateTraces [] txs) :=
  foldl_startTrace_started (show Started ([], []) from ⟨rfl, List.nodup_nil⟩) txs

theorem parsers_emulateTraces (ids : List Bits256) (txs : List TransactionInfo) :
    Task.parsers (emulateTraces ids txs).2 = 0 := by
  suffices ∀ acc : List Bits256 × List Task, Task.parsers (txs.foldl startTrace acc).2 = Task.parsers acc.2 from
    this _
  induction txs with
  | nil => intro _; rfl
  | cons tx txs ih =>
    intro acc
    rw [List.foldl_cons, ih]
    unfold McBlockEmulator.startTrace
    split
    · rfl
    · split <;> simp [Task.isParse]

/-- What every reachable state keeps: one parser in flight per block left, the trace ids
in flight are `trace_ids_in_progress_`, each once and none while blocks are left, and
success only with nothing in flight. -/
structure InFlight (s : State) : Prop where
  parsers : s.stopped = false → Task.parsers s.tasks = s.blocksLeftToParse
  traces : (Task.traceIds s.tasks).Perm s.traceIdsInProgress
  nodup : s.traceIdsInProgress.Nodup
  parsing : 0 < s.blocksLeftToParse → s.traceIdsInProgress = []
  success : s.promise = some (.ok ()) → s.tasks = [] ∧ s.blocksLeftToParse = 0

section Handlers

variable {s : State} {t : Task} {id : Bits256}

theorem InFlight.init (blocks : Nat) (interblock : StdMap Bits256 Bits256) :
    InFlight (State.init blocks interblock) where
  parsers _ := by
    show ((List.range blocks).map Task.parse).countP Task.isParse = blocks
    rw [List.countP_eq_length.2 (by simp [Task.isParse]), List.length_map, List.length_range]
  traces := by simp [State.init, Task.traceIds, List.filterMap_eq_nil_iff, Task.traceId?]
  nodup := List.nodup_nil
  parsing _ := rfl
  success h := by simp [State.init] at h

theorem InFlight.mem_of_pending (hi : InFlight s) (h : t ∈ s.tasks) (ht : t.traceId? = some id) :
    id ∈ s.traceIdsInProgress :=
  hi.traces.subset ((Task.traceIds_erase h ht).symm.subset (List.mem_cons_self _ _))

theorem InFlight.drop (hi : InFlight s) (hp : PromiseInv s) (live : s.stopped = false)
    (h : t ∈ s.tasks) (ht : t.traceId? = some id) (n : Nat) :
    InFlight {s with traceIdsInProgress := s.traceIdsInProgress.erase id, tracesCnt := n,
                     tasks := s.tasks.erase t} where
  parsers _ := by simpa [Task.parsers_erase h, Task.isParse_of_traceId? ht] using hi.parsers live
  traces := by simpa using ((Task.traceIds_erase h ht).erase id).symm.trans (hi.traces.erase id)
  nodup := hi.nodup.erase id
  parsing hb := by simp [hi.parsing hb]
  success h := by simp [(hp.1 live).2] at h

theorem InFlight.handoff (hi : InFlight s) (hp : PromiseInv s) (live : s.stopped = false)
    (h : t ∈ s.tasks) (ht : t.traceId? = some id) {t' : Task} (ht' : t'.traceId? = some id) :
    InFlight {s with tasks := s.tasks.erase t ++ [t']} where
  parsers _ := by
    simpa [Task.parsers_erase h, Task.isParse_of_traceId? ht, Task.isParse_of_traceId? ht'] using hi.parsers live
  traces := by
    simpa [ht'] using ((List.perm_append_singleton id _).trans (Task.traceIds_erase h ht).symm).trans hi.traces
  nodup := hi.nodup
  parsing := hi.parsing
  success h := by simp [(hp.1 live).2] at h

theorem InFlight.finish_ok (hi : InFlight s) (live : s.stopped = false)
    (he : s.traceIdsInProgress = []) (hb : s.blocksLeftToParse = 0) : InFlight (s.finish (.ok ())) where
  parsers h := by simp [State.finish] at h
  traces := hi.traces
  nodup := hi.nodup
  parsing := hi.parsing
  success _ := ⟨Task.eq_nil_of_parsers_traceIds ((hi.parsers live).trans hb) (he ▸ hi.traces).eq_nil, hb⟩

theorem InFlight.processAndEmulate (sorted : List TransactionInfo) (hb : s.blocksLeftToParse = 0)
    (hp : Task.parsers s.tasks = 0) (ht : Task.traceIds s.tasks = []) (he : s.traceIdsInProgress = [])
    (hnone : s.promise = none) : InFlight (s.processAndEmulate sorted) := by
  obtain ⟨hids, hnd⟩ := emulateTraces_started (McBlockEmulator.processTxs s.interblockTraceIds sorted).txs
  simp only [State.processAndEmulate, he]
  exact { parsers := fun _ => by simp [hp, hb, parsers_emulateTraces]
          traces := by simp [ht, hids]
          nodup := hnd
          parsing := by simp [hb]
          success := by simp [hnone] }

end Handlers

theorem McStep.inFlight {s s' : State} (h : McStep s s') (hp : PromiseInv s) (hi : InFlight s) :
    InFlight s' := by
  have hnone := fun live : s.stopped = false => (hp.1 live).2
  cases h with
  | blockParsed blk txs sorted live pending =>
    have hn : Task.parsers (s.tasks.erase (.parse blk)) + 1 = s.blocksLeftToParse := by
      simpa [Task.parsers_erase pending, Task.isParse] using hi.parsers live
    have he := hi.parsing (by omega)
    have ht := ((Task.traceIds_erase_parse pending).symm.trans (he ▸ hi.traces)).eq_nil
    simp only [State.blockParsed]
    split
    · exact InFlight.processAndEmulate sorted ‹_› (by simp at *; omega) ht he (hnone live)
    · exact { parsers := fun _ => by simp only; omega
              traces := by simp only [ht, he]; exact .nil
              nodup := hi.nodup
              parsing := fun _ => he
              success := by simp [hnone live] }
  | parseError blk e live pending =>
    exact { parsers := fun h => by simp [State.finish] at h
            traces := (Task.traceIds_erase_parse pending).symm.trans hi.traces
            nodup := hi.nodup
            parsing := hi.parsing
            success := by simp [State.finish, hnone live] }
  | traceError tx traceId live pending => exact hi.drop hp live pending rfl _
  | traceReceived tx traceId live pending => exact hi.handoff hp live pending rfl rfl
  | traceInterfacesError traceId live pending => exact hi.drop hp live pending rfl _
  | traceEmulated traceId live pending => exact hi.handoff hp live pending rfl rfl
  | traceFinished traceId live pending =>
    have hmem := hi.mem_of_pending pending rfl
    have hb : s.blocksLeftToParse = 0 := Nat.eq_zero_of_not_pos fun h => by simp [hi.parsing h] at hmem
    have hd := hi.drop hp live pending rfl (s.tracesCnt + 1)
    simp only [State.traceFinished]
    split
    · exact hd.finish_ok live ‹_› hb
    · exact hd

theorem McReachable.inFlight {s : State} (h : McReachable s) : InFlight s := by
  induction h with
  | init blocks interblock => exact InFlight.init blocks interblock
  | step hr hs ih => exact hs.inFlight hr.promiseInv ih

def finishedTraceRun : List McAction :=
  [.blockParsed 0 [oneTraceTx], .traceReceived {oneTraceTx with initialMsgHash := some oneTraceId} oneTraceId,
   .traceEmulated oneTraceId, .traceFinished oneTraceId]

/-- `promise_` holds success only once every block is parsed and every trace
started has been answered through `trace_finished` or an error: nothing is in
flight and no trace is in progress. -/
theorem success_after_all_answered {s : State} (h : McReachable s) (hs : s.promise = some (.ok ())) :
    s.tasks = [] ∧ s.blocksLeftToParse = 0 ∧ s.traceIdsInProgress = [] := by
  obtain ⟨ht, hb⟩ := h.inFlight.success hs
  exact ⟨ht, hb, (ht ▸ h.inFlight.traces).symm.eq_nil⟩

theorem finishedTraceRun_answered :
    let s := State.runOneBlock finishedTraceRun
    McReachable s ∧ s.promise = some (.ok ()) ∧
      s.tasks = [] ∧ s.blocksLeftToParse = 0 ∧ s.traceIdsInProgress = [] :=
  have hr := runOneBlock_reachable finishedTraceRun (by decide)
  ⟨hr, rfl, success_after_all_answered hr rfl⟩

/-- Each trace id in `trace_ids_in_progress_` has exactly one operation in flight (its
emulator, its interface detector or its insert), and no other trace id has any. -/
theorem pending_count_eq {s : State} (h : McReachable s) (id : Bits256) :
    (Task.traceIds s.tasks).count id = if id ∈ s.traceIdsInProgress then 1 else 0 := by
  rw [h.inFlight.traces.count_eq]
  split
  · exact List.count_eq_one_of_mem h.inFlight.nodup ‹_›
  · exact List.count_eq_zero_of_not_mem ‹_›

theorem parsedBlock_one_pending :
    let s := State.runOneBlock [.blockParsed 0 [oneTraceTx]]
    McReachable s ∧ (Task.traceIds s.tasks).count oneTraceId = 1 :=
  have hr := runOneBlock_reachable [.blockParsed 0 [oneTraceTx]] (by decide)
  ⟨hr, (pending_count_eq hr oneTraceId).trans (if_pos (by decide))⟩

/-- A running `McBlockEmulator` has a handler to run, or has parsed every block,
holds no trace in progress and has not set its promise: the one way a run ends
without an answer. -/
theorem live_step_or_hang {s : State} (h : McReachable s) (live : s.stopped = false) :
    (∃ s', McStep s s') ∨
      (s.tasks = [] ∧ s.blocksLeftToParse = 0 ∧ s.traceIdsInProgress = [] ∧ s.promise = none) := by
  cases ht : s.tasks with
  | nil =>
    have hi := h.inFlight
    refine .inr ⟨rfl, ?_, (ht ▸ hi.traces).symm.eq_nil, (h.promiseInv.1 live).2⟩
    simpa [ht] using (hi.parsers live).symm
  | cons t rest =>
    have pending : t ∈ s.tasks := ht ▸ List.mem_cons_self t rest
    left
    cases t with
    | parse blk =>
      exact ⟨_, .blockParsed blk [] _ live pending (sortByLt_perm _) (sortByLt_sorted _)⟩
    | emulate tx traceId => exact ⟨_, .traceReceived tx traceId live pending⟩
    | detect traceId => exact ⟨_, .traceEmulated traceId live pending⟩
    | insert traceId => exact ⟨_, .traceFinished traceId live pending⟩

theorem failedTraceRun_hangs :
    let s := State.runOneBlock failedTraceRun
    McReachable s ∧ s.stopped = false ∧ ((∃ s', McStep s s') ∨
      (s.tasks = [] ∧ s.blocksLeftToParse = 0 ∧ s.traceIdsInProgress = [] ∧ s.promise = none)) :=
  have hr := runOneBlock_reachable failedTraceRun (by decide)
  ⟨hr, rfl, live_step_or_hang hr rfl⟩

theorem InFlight.unique {s : State} {t t' : Task} {id : Bits256} (hi : InFlight s) (h : t ∈ s.tasks)
    (ht : t.traceId? = some id) (h' : t' ∈ s.tasks) (ht' : t'.traceId? = some id) : t = t' := by
  by_contra hne
  have hmem : id ∈ Task.traceIds (s.tasks.erase t) :=
    List.mem_filterMap.2 ⟨t', (List.mem_erase_of_ne (Ne.symm hne)).2 h', ht'⟩
  have hnd := (Task.traceIds_erase h ht).nodup_iff.1 (hi.traces.nodup_iff.2 hi.nodup)
  exact (List.nodup_cons.1 hnd).1 hmem

@[simp] theorem State.traceFinished_tasks (s : State) (id : Bits256) :
    (s.traceFinished id).tasks = s.tasks.erase (.insert id) := by
  simp only [State.traceFinished]; split <;> rfl

@[simp] theorem State.traceFinished_blocksLeftToParse (s : State) (id : Bits256) :
    (s.traceFinished id).blocksLeftToParse = s.blocksLeftToParse := by
  simp only [State.traceFinished]; split <;> rfl

structure PastDetection (id : Bits256) (s : State) : Prop where
  parsed : s.blocksLeftToParse = 0
  no_detect : .detect id ∉ s.tasks
  no_emulate : ∀ tx, .emulate tx id ∉ s.tasks

theorem McStep.pastDetection {s s' : State} {id : Bits256} (h : McStep s s') (hi : InFlight s)
    (hp : PastDetection id s) : PastDetection id s' := by
  obtain ⟨hb, hd, he⟩ := hp
  have noParse : ∀ blk, s.stopped = false → .parse blk ∉ s.tasks := fun blk live hm => by
    have := Task.parsers_erase hm
    simp [hi.parsers live, hb, Task.isParse] at this
  cases h with
  | blockParsed blk _ _ live pending | parseError blk _ live pending => exact absurd pending (noParse blk live)
  | traceError _ _ _ pending | traceInterfacesError _ _ pending =>
    exact ⟨hb, fun hm => hd (List.mem_of_mem_erase hm), fun tx' hm => he tx' (List.mem_of_mem_erase hm)⟩
  | traceReceived tx traceId live pending =>
    refine ⟨hb, fun hm => ?_, fun tx' hm => ?_⟩
    · rcases List.mem_append.1 hm with hm | hm
      · exact hd (List.mem_of_mem_erase hm)
      · obtain rfl : id = traceId := by simpa using hm
        exact he tx pending
    · rcases List.mem_append.1 hm with hm | hm
      · exact he tx' (List.mem_of_mem_erase hm)
      · simp at hm
  | traceEmulated traceId live pending =>
    refine ⟨hb, fun hm => ?_, fun tx' hm => ?_⟩ <;> rcases List.mem_append.1 hm with hm | hm
    · exact hd (List.mem_of_mem_erase hm)
    · simp at hm
    · exact he tx' (List.mem_of_mem_erase hm)
    · simp at hm
  | traceFinished traceId live pending =>
    exact ⟨by simpa using hb, fun hm => hd (by simpa using hm), fun tx' hm => he tx' (by simpa using hm)⟩

/-- Once `trace_processor_` has been called for a trace, no continuation of the run
emulates or detects that trace again, so `trace_processor_` is called at most once per
trace id. -/
theorem insert_once {s s' : State} {id : Bits256} (h : McReachable s) (hi : .insert id ∈ s.tasks)
    (hr : Relation.ReflTransGen McStep s s') : .detect id ∉ s'.tasks ∧ ∀ tx, .emulate tx id ∉ s'.tasks := by
  have hf := h.inFlight
  have hb : s.blocksLeftToParse = 0 :=
    Nat.eq_zero_of_not_pos fun hp => by simpa [hf.parsing hp] using hf.mem_of_pending hi rfl
  have h₀ : PastDetection id s :=
    ⟨hb, fun hm => (nomatch hf.unique hm rfl hi rfl), fun _ hm => (nomatch hf.unique hm rfl hi rfl)⟩
  suffices McReachable s' ∧ PastDetection id s' from ⟨this.2.no_detect, this.2.no_emulate⟩
  induction hr with
  | refl => exact ⟨h, h₀⟩
  | tail _ hs ih => exact ⟨ih.1.step hs, hs.pastDetection ih.1.inFlight ih.2⟩

def insertingRun : List McAction :=
  [.blockParsed 0 [oneTraceTx], .traceReceived {oneTraceTx with initialMsgHash := some oneTraceId} oneTraceId,
   .traceEmulated oneTraceId]

theorem insertingRun_once :
    McReachable (State.runOneBlock insertingRun) ∧ .insert oneTraceId ∈ (State.runOneBlock insertingRun).tasks ∧
      Relation.ReflTransGen McStep (State.runOneBlock insertingRun) (State.runOneBlock finishedTraceRun) ∧
      .detect oneTraceId ∉ (State.runOneBlock finishedTraceRun).tasks ∧
      ∀ tx, .emulate tx oneTraceId ∉ (State.runOneBlock finishedTraceRun).tasks :=
  have hr := runOneBlock_reachable insertingRun (by decide)
  have hi : .insert oneTraceId ∈ (State.runOneBlock insertingRun).tasks := by decide
  have hs : Relation.ReflTransGen McStep (State.runOneBlock insertingRun) (State.runOneBlock finishedTraceRun) :=
    .single (McAction.run_step (a := .traceFinished oneTraceId) rfl)
  ⟨hr, hi, hs, insert_once hr hi hs⟩

def Task.weight : Task → Nat
  | .parse _ => 0
  | .emulate _ _ => 3
  | .detect _ => 2
  | .insert _ => 1

def Task.work (l : List Task) : Nat := (l.map Task.weight).sum

theorem Task.work_append (l l' : List Task) : work (l ++ l') = work l + work l' := by
  simp [work]

theorem Task.work_erase {l : List Task} {t : Task} (h : t ∈ l) : work l = t.weight + work (l.erase t) := by
  simpa [work] using ((List.perm_cons_erase h).map weight).sum_eq

def State.left (s : State) : Nat × Nat := (Task.parsers s.tasks, Task.work s.tasks)

theorem left_lt_of_answer {s s' : State} {t : Task} {id : Bits256} (h : t ∈ s.tasks)
    (ht : t.traceId? = some id) {l' : List Task} (htasks : s'.tasks = s.tasks.erase t ++ l')
    (hp : Task.parsers l' = 0) (hw : Task.work l' < t.weight) :
    Prod.Lex (· < ·) (· < ·) s'.left s.left := by
  have e : s'.left = (s.left.1, Task.work (s.tasks.erase t) + Task.work l') := by
    simp [State.left, htasks, Task.parsers_erase h, Task.isParse_of_traceId? ht, hp, Task.work_append]
  have hlt : Task.work (s.tasks.erase t) + Task.work l' < Task.work s.tasks := by
    rw [Task.work_erase h]; omega
  rw [e]
  exact Prod.Lex.right _ hlt

theorem McStep.left_lt {s s' : State} (h : McStep s s') : Prod.Lex (· < ·) (· < ·) s'.left s.left := by
  cases h with
  | blockParsed blk txs sorted live pending =>
    simp only [State.blockParsed]
    split <;> refine Prod.Lex.left _ _ ?_ <;>
      simp [State.left, State.processAndEmulate, parsers_emulateTraces, Task.parsers_erase pending, Task.isParse]
  | parseError blk e live pending =>
    exact Prod.Lex.left _ _ (by simp [State.left, State.finish, Task.parsers_erase pending, Task.isParse])
  | traceError _ _ _ pending | traceInterfacesError _ _ pending =>
    exact left_lt_of_answer pending rfl (List.append_nil _).symm rfl (by simp [Task.work, Task.weight])
  | traceReceived _ _ _ pending | traceEmulated _ _ pending =>
    exact left_lt_of_answer pending rfl rfl rfl (by simp [Task.work, Task.weight])
  | traceFinished traceId live pending =>
    exact left_lt_of_answer pending rfl ((State.traceFinished_tasks s traceId).trans (List.append_nil _).symm) rfl
      (by simp [Task.work, Task.weight])

/-- Every run of `McBlockEmulator` is finite, from any state: a last parsed
block may start any number of traces, but no handler starts a parser. -/
theorem mcStep_wellFounded : WellFounded fun s' s => McStep s s' :=
  Subrelation.wf (fun h => h.left_lt) (invImage State.left (Prod.lex Nat.lt_wfRel Nat.lt_wfRel)).wf

end McBlockEmulator

end TonIndex
