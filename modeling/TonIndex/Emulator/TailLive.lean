import TonIndex.Emulator.TailRefine
import Mathlib.Algebra.BigOperators.Group.List
import Mathlib.Algebra.Order.Ring.Nat

set_option autoImplicit false

namespace TonIndex

namespace TraceTailEmulator

open State

def msgWork (byIn : StdMap Bits256 TransactionInfo) (w : TransactionInfo → Nat) (o : OutMsgInfo) : Nat :=
  1 + match o.slot, byIn o.hash with
    | some _, some c => w c
    | some _, none => 1
    | none, _ => 0

/-- The work a queued transaction costs: its dispatch, its out-messages and the
end of its loop. `fuel` bounds the depth, as in `emulateTx`. -/
def work (byIn : StdMap Bits256 TransactionInfo) : Nat → TransactionInfo → Nat
  | 0, _ => 0
  | n + 1, c => 2 + (c.outMsgs.map (msgWork byIn (work byIn n))).sum

def State.rank (byIn : StdMap Bits256 TransactionInfo) (n : Nat) (s : State) : Nat :=
  (s.mailbox.map fun e => work byIn n e.1).sum +
    (match s.running with
     | none => 0
     | some f => 1 + (f.rest.map (msgWork byIn (work byIn n))).sum) +
    s.requests.length

section Work

variable {byIn : StdMap Bits256 TransactionInfo} {S : TransactionInfo → Prop} {L : Nat}

theorem work_fuel (ho : Ordered byIn S L) :
    ∀ (n m : Nat) (c : TransactionInfo), S c → L < c.lt + n → L < c.lt + m → work byIn n c = work byIn m c
  | 0, _, c, hs, hn, _ => absurd (ho.bounded c hs) (by omega)
  | _, 0, c, hs, _, hm => absurd (ho.bounded c hs) (by omega)
  | n + 1, m + 1, c, hs, hn, hm => by
    simp only [work]
    refine congrArg (2 + ·) (congrArg List.sum (List.map_congr_left fun o ho' => ?_))
    unfold msgWork
    split
    · rename_i c' hd hc'
      obtain ⟨hs', hlt⟩ := ho.closed _ _ hs ⟨o, ho', by simp [hd], hc'⟩
      rw [work_fuel ho n m c' hs' (by omega) (by omega)]
    all_goals rfl

theorem work_unfold (ho : Ordered byIn S L) (c : TransactionInfo) (hc : S c) :
    work byIn (L + 1) c = 2 + (c.outMsgs.map (msgWork byIn (work byIn (L + 1)))).sum := by
  refine congrArg (2 + ·) (congrArg List.sum (List.map_congr_left fun o ho' => ?_))
  unfold msgWork
  split
  · rename_i c' hd hc'
    obtain ⟨hs', hlt⟩ := ho.closed _ _ hc ⟨o, ho', by simp [hd], hc'⟩
    rw [work_fuel ho L (L + 1) c' hs' (by omega) (by omega)]
  all_goals rfl

end Work

structure Queued (S : TransactionInfo → Prop) (s : State) : Prop where
  mailbox : ∀ e ∈ s.mailbox, S e.1
  running : ∀ f, s.running = some f → ∃ c pre, S c ∧ c.outMsgs = pre ++ f.rest

section Steps

variable {byIn : StdMap Bits256 TransactionInfo} {S : TransactionInfo → Prop} {tx : TransactionInfo}
  {s s' : State}

theorem finishLoop_settles (s : State) (f : Frame) :
    (s.finishLoop f).mailbox = s.mailbox ∧ (s.finishLoop f).running = none ∧
      (s.finishLoop f).requests = s.requests := by
  unfold State.finishLoop
  split
  · exact ⟨rfl, rfl, rfl⟩
  · dsimp only
    split
    · exact ⟨(deliver_settles _ _ _ _).mailbox, (deliver_settles _ _ _ _).running,
        (deliver_settles _ _ _ _).requests⟩
    · exact ⟨rfl, rfl, rfl⟩

theorem Queued.deliver (hq : Queued S s) (n : Nat) (tgt : Target) (res : Except Status TraceNode) :
    Queued S (deliver n tgt res s) :=
  have h := deliver_settles n tgt res s
  ⟨h.mailbox ▸ hq.mailbox, h.running ▸ hq.running⟩

theorem TailStep.queued (hS : ∀ p c, S p → Feeds byIn p c → S c) (h : TailStep byIn s s') (hq : Queued S s) :
    Queued S s' := by
  cases h with
  | @dispatch c tgt rest hr hm =>
    have hc := hq.mailbox (c, tgt) (by simp [hm])
    refine ⟨fun e he => hq.mailbox e (hm ▸ List.mem_cons_of_mem _ he), fun f hf => ?_⟩
    simp only [beginEmulate, Option.some.injEq] at hf
    exact ⟨c, [], hc, hf ▸ rfl⟩
  | @loop f o rest hr hf =>
    obtain ⟨c, pre, hc, hout⟩ := hq.running f hr
    rw [hf] at hout
    have hrun : ∀ f' : Frame, f'.rest = rest → ∃ c pre, S c ∧ c.outMsgs = pre ++ f'.rest :=
      fun f' h => ⟨c, pre ++ [o], hc, by simp [hout, h]⟩
    unfold State.loopStep
    split
    · exact ⟨hq.mailbox, fun f' h => hrun f' (by cases h; rfl)⟩
    · rename_i dest hd
      split
      · rename_i c' hc'
        refine ⟨fun e he => ?_, fun f' h => hrun f' (by cases h; rfl)⟩
        rcases List.mem_append.1 he with he | he
        · exact hq.mailbox e he
        · rw [List.mem_singleton.1 he]
          exact hS c c' hc ⟨o, by simp [hout], by simp [hd], hc'⟩
      · exact ⟨hq.mailbox, fun f' h => hrun f' (by cases h; rfl)⟩
  | finish =>
    obtain ⟨hm, hr, -⟩ := finishLoop_settles s _
    exact ⟨hm ▸ hq.mailbox, fun _ h => absurd (hr ▸ h) (by simp)⟩
  | replyOk | replyError =>
    refine Queued.deliver ?_ _ _ _
    exact ⟨hq.mailbox, hq.running⟩

theorem rank_deliver (m n : Nat) (tgt : Target) (res : Except Status TraceNode) (s : State) :
    (deliver n tgt res s).rank byIn m = s.rank byIn m := by
  have h := deliver_settles n tgt res s
  simp only [State.rank, h.mailbox, h.running, h.requests]

theorem TailStep.rank_succ {L : Nat} (ho : Ordered byIn S L) (h : TailStep byIn s s') (hq : Queued S s) :
    s'.rank byIn (L + 1) + 1 = s.rank byIn (L + 1) := by
  cases h with
  | @dispatch c tgt rest hr hm =>
    rw [State.rank, State.rank, hm, hr, List.map_cons, List.sum_cons,
      work_unfold ho c (hq.mailbox (c, tgt) (by simp [hm]))]
    simp only [beginEmulate]
    omega
  | @loop f o rest hr hf =>
    have hmsg : ∀ w : TransactionInfo → Nat, (f.rest.map (msgWork byIn w)).sum =
        msgWork byIn w o + (rest.map (msgWork byIn w)).sum := fun w => by rw [hf, List.map_cons, List.sum_cons]
    unfold State.loopStep
    split
    · rename_i hd
      simp only [State.rank, hr, hmsg, msgWork, hd]
      omega
    · rename_i dest hd
      split
      · rename_i c' hc'
        simp only [State.rank, hr, hmsg, msgWork, hd, hc', List.map_append, List.sum_append, List.map_cons,
          List.map_nil, List.sum_cons, List.sum_nil]
        omega
      · rename_i hc'
        simp only [State.rank, hr, hmsg, msgWork, hd, hc', List.length_append, List.length_singleton]
        omega
  | @finish f hr hf =>
    obtain ⟨hm, hr', hq'⟩ := finishLoop_settles s f
    simp only [State.rank, hm, hr', hq', hr, hf, List.map_nil, List.sum_nil]
    omega
  | replyOk hq' | replyError _ hq' =>
    rw [rank_deliver]
    simp only [State.rank, hq', List.length_append, List.length_cons]
    omega

theorem TailReachable.queued (hS : ∀ p c, S p → Feeds byIn p c → S c) (htx : S tx)
    (h : TailReachable byIn tx s) : Queued S s := by
  induction h with
  | init =>
    refine ⟨fun e he => by simp [State.init, beginEmulate] at he, fun f hf => ⟨tx, [], htx, ?_⟩⟩
    simp only [State.init, beginEmulate, Option.some.injEq] at hf
    rw [← hf]
    rfl
  | step _ hst ih => exact hst.queued hS ih

end Steps

/-- Every run of the actor on a transaction of the block ends: each step does
one unit of the work left, which the block's lts bound. -/
theorem tailStep_wellFounded {byIn : StdMap Bits256 TransactionInfo} {S : TransactionInfo → Prop} {L : Nat}
    {tx : TransactionInfo} (ho : Ordered byIn S L) (htx : S tx) :
    WellFounded fun s' s => TailReachable byIn tx s ∧ TailStep byIn s s' :=
  Subrelation.wf (fun ⟨hs, hst⟩ => by
      have := hst.rank_succ ho (hs.queued ho.feeds_mem htx)
      show State.rank byIn (L + 1) _ < State.rank byIn (L + 1) _
      omega)
    (measure (State.rank byIn (L + 1))).wf

/-- The runs of the actor on the transaction whose one out-message leaves the
block all end. -/
theorem escapingTx_runs_end :
    WellFounded fun s' s => TailReachable StdMap.empty escapingTx s ∧ TailStep StdMap.empty s s' :=
  tailStep_wellFounded escapingTx_ordered rfl

/-- What makes the actor hand on its trees: a finished node whose promise is not set
waits on a subpromise, node `0` is there, and the root's promise, once set, has reached
`promise_` unless `passing`. -/
structure Live (s : State) (passing : Prop) : Prop where
  pending : ∀ (k : Nat) (p : NodeObj), s.nodes[k]? = some p → p.fired = false → p.guarded = false →
    0 < p.pending
  root : ∀ (k : Nat) (p : NodeObj), s.nodes[k]? = some p → p.fired = true → p.target = .root →
    s.result.isSome ∨ passing
  nonempty : s.nodes ≠ []

section Live

variable {byIn : StdMap Bits256 TransactionInfo} {tx : TransactionInfo} {s s' : State}

theorem Live.set {w w' : Prop} (h : Live s w) {k : Nat} {q : NodeObj}
    (hn : s'.nodes = s.nodes.set k q) (hres : s'.result = s.result)
    (hpos : q.fired = false → q.guarded = false → 0 < q.pending)
    (hroot : q.fired = true → q.target = .root → s.result.isSome ∨ w') (hw : w → w') : Live s' w' := by
  refine ⟨fun j q' hj hf hg => ?_, fun j q' hj hf ht => ?_, ?_⟩
  · rcases getElem?_set_eq_some (hn ▸ hj) with ⟨-, rfl⟩ | ⟨-, hj⟩
    · exact hpos hf hg
    · exact h.pending j q' hj hf hg
  · rw [hres]
    rcases getElem?_set_eq_some (hn ▸ hj) with ⟨-, rfl⟩ | ⟨-, hj⟩
    · exact hroot hf ht
    · exact (h.root j q' hj hf ht).imp_right hw
  · rw [← List.length_pos, hn, List.length_set, List.length_pos]
    exact h.nonempty

theorem Live.strict {w : Prop} (h : Live s w) (hw : ¬w) : Live s False :=
  ⟨h.pending, fun k p hk hf ht => (h.root k p hk hf ht).imp_right hw, h.nonempty⟩

theorem deliver_live : ∀ (n : Nat) (tgt : Target) (res : Except Status TraceNode) (s : State),
    Live s (tgt = .root) → Live (deliver n tgt res s) False
  | _, .root, _, s, h => by
    rw [deliver_root]
    exact ⟨h.pending, fun _ _ _ _ _ => .inl rfl, h.nonempty⟩
  | 0, .child _ _, _, _, h => h.strict (nomatch ·)
  | n + 1, .child k i, .error e, s, h => by
    simp only [deliver]
    split
    · exact h.strict (nomatch ·)
    · rename_i p hk
      split
      · exact h.set rfl rfl (nomatch ·) (fun _ ht => (h.root k p hk ‹_› ht).imp_right (nomatch ·)) (nomatch ·)
      · exact deliver_live n _ _ _ (h.set rfl rfl (nomatch ·) (fun _ ht => .inr ht) (nomatch ·))
  | n + 1, .child k i, .ok t, s, h => by
    simp only [deliver]
    split
    · exact h.strict (nomatch ·)
    · rename_i p hk
      split
      · exact deliver_live n _ _ _ (h.set rfl rfl (nomatch ·) (fun _ ht => .inr ht) (nomatch ·))
      · rename_i hcond
        refine h.set rfl rfl (fun hf hg => ?_) (fun hf ht => (h.root k p hk hf ht).imp_right (nomatch ·))
          (nomatch ·)
        exact Nat.pos_of_ne_zero fun h0 => hcond ⟨h0, hg, hf⟩

theorem TailStep.live (h : TailStep byIn s s') (hl : Live s False) : Live s' False := by
  cases h with
  | @dispatch c tgt rest _ _ =>
    refine ⟨fun j q hj hf hg => ?_, fun j q hj hf ht => ?_, by simp [beginEmulate]⟩
    · simp only [beginEmulate, getElem?_snoc] at hj
      rcases hj with hj | ⟨-, rfl⟩
      · exact hl.pending j q hj hf hg
      · cases hg
    · simp only [beginEmulate, getElem?_snoc] at hj
      rcases hj with hj | ⟨-, rfl⟩
      · exact hl.root j q hj hf ht
      · cases hf
  | @loop f o rest _ _ =>
    cases hd : o.slot with
    | none =>
      have he : s.loopStep byIn f o rest = { s with running := some { f with rest := rest } } := by
        simp [State.loopStep, hd]
      rw [he]
      exact ⟨hl.pending, hl.root, hl.nonempty⟩
    | some dest =>
      obtain ⟨hn, -, hres, -⟩ := @loopStep_of_slot byIn s f o rest dest hd
      refine ⟨fun j q hj hf hg => ?_, fun j q hj hf ht => ?_, ?_⟩
      · rw [hn] at hj
        obtain ⟨p, hp, rfl⟩ := getElem?_addPending hj
        exact Nat.lt_of_lt_of_le (hl.pending j p hp hf hg) (Nat.le_add_right _ _)
      · rw [hn] at hj
        obtain ⟨p, hp, rfl⟩ := getElem?_addPending hj
        exact hres ▸ hl.root j p hp hf ht
      · rw [← List.length_pos, hn, List.length_modify, List.length_pos]
        exact hl.nonempty
  | @finish f _ _ =>
    unfold State.finishLoop
    split
    · exact ⟨hl.pending, hl.root, hl.nonempty⟩
    · rename_i p hk
      dsimp only
      split
      · exact deliver_live _ _ _ _ (hl.set rfl rfl (nomatch ·) (fun _ ht => .inr ht) (nomatch ·))
      · rename_i hcond
        refine hl.set rfl rfl (fun hf _ => ?_) (fun hf ht => hl.root _ p hk hf ht) id
        exact Nat.pos_of_ne_zero fun h0 => hcond ⟨h0, hf⟩
  | replyOk | replyError =>
    exact deliver_live _ _ _ _ ⟨hl.pending, fun k p hk hf ht => (hl.root k p hk hf ht).imp_right False.elim,
      hl.nonempty⟩

theorem TailReachable.live (h : TailReachable byIn tx s) : Live s False := by
  induction h with
  | init =>
    refine ⟨fun k p hk _ hg => ?_, fun k p hk hf _ => ?_, by simp [State.init, beginEmulate]⟩
    · obtain ⟨-, rfl⟩ := init_node.1 hk
      cases hg
    · obtain ⟨-, rfl⟩ := init_node.1 hk
      cases hf
  | step _ hst ih => exact hst.live ih

end Live

theorem TailStep.busy {byIn : StdMap Bits256 TransactionInfo} {s s' : State} (h : TailStep byIn s s') :
    s.running ≠ none ∨ s.mailbox ≠ [] ∨ s.requests ≠ [] := by
  cases h with
  | dispatch _ hm => exact .inr (.inl (by simp [hm]))
  | loop hr _ | finish hr _ => exact .inl (by simp [hr])
  | replyOk hq | replyError _ hq => exact .inr (.inr (by simp [hq]))

section End

variable {byIn : StdMap Bits256 TransactionInfo} {E : TransactionInfo → TraceNode} {S : TransactionInfo → Prop}
  {tx : TransactionInfo} {s : State}

theorem idle_all_fired (hpl : Placed byIn E S tx s) (hc : Counted byIn E tx s .root) (hsz : Sized s)
    (hl : Live s False) (hr : s.running = none) (hm : s.mailbox = []) (hq : s.requests = []) :
    ∀ (k : Nat) (p : NodeObj), s.nodes[k]? = some p → p.fired = true := by
  -- by induction on the nodes after `k`: a node's children come after it
  suffices h : ∀ d k p, s.nodes.length - k ≤ d → s.nodes[k]? = some p → p.fired = true from
    fun k p => h _ k p le_rfl
  intro d
  induction d with
  | zero =>
    intro k p hd hk
    have := (List.getElem?_eq_some_iff.1 hk).1
    omega
  | succ d ih =>
    intro k p hd hk
    by_contra hf
    simp only [Bool.not_eq_true] at hf
    -- nothing is owed to `k`: its children have their promises set
    have ho : s.owed k = 0 := by
      simp only [owed, hm, hq, List.countP_nil, Nat.zero_add, List.countP_eq_zero]
      intro q hqm h
      obtain ⟨j, hj, rfl⟩ := List.getElem_of_mem hqm
      simp only [Bool.and_eq_true, Bool.not_eq_true'] at h
      rcases ht : s.nodes[j].target with _ | ⟨k', i⟩ <;> simp only [ht, Target.isOf, beq_iff_eq] at h
      · cases h.2
      · have hkj := hpl.parentLt j _ k' i (List.getElem?_eq_getElem hj) ht
        have := ih j _ (by omega) (List.getElem?_eq_getElem hj)
        simp [h.1] at this
    have h0 : p.pending = 0 := by simpa [ho] using hc.pending k p hk hf
    cases hg : p.guarded
    · exact absurd h0 (Nat.pos_iff_ne_zero.1 (hl.pending k p hk hf hg))
    · obtain ⟨f, hf', -⟩ := hsz.guarded k p hk hg
      rw [hr] at hf'
      cases hf'

variable {L : Nat}

theorem deliver_ok_result : ∀ (n : Nat) (tgt : Target) (v : TraceNode) (s : State),
    (deliver n tgt (.ok v) s).result = s.result ∨ ∃ t, (deliver n tgt (.ok v) s).result = some (.ok t)
  | _, .root, v, s => by rw [deliver_root]; exact .inr ⟨v, rfl⟩
  | 0, .child _ _, _, _ => .inl rfl
  | n + 1, .child k i, v, s => by
    simp only [deliver]
    split
    · exact .inl rfl
    · split
      · exact deliver_ok_result n _ _ _
      · exact .inl rfl

theorem finishLoop_result (s : State) (f : Frame) :
    (s.finishLoop f).result = s.result ∨ ∃ t, (s.finishLoop f).result = some (.ok t) := by
  unfold State.finishLoop
  split
  · exact .inl rfl
  · dsimp only
    split
    · exact deliver_ok_result _ _ _ _
    · exact .inl rfl

theorem loopStep_result (s : State) (f : Frame) (o : OutMsgInfo) (rest : List OutMsgInfo) :
    (s.loopStep byIn f o rest).result = s.result := by
  unfold State.loopStep
  split
  · rfl
  · split <;> rfl

theorem TailReachable.good_step (ho : Ordered byIn S L) (htx : S tx) (hs : TailReachable byIn tx s)
    (hb : s.outOfBounds = false) (hres : s.result = none) :
    ∃ s', TailStep byIn s s' ∧ s'.outOfBounds = false ∧
      (s'.result = s.result ∨ ∃ t, s'.result = some (.ok t)) := by
  cases hr : s.running with
  | some f =>
    cases hf : f.rest with
    | nil => exact ⟨_, .finish hr hf, hs.sized.finishLoop_outOfBounds hr ▸ hb, finishLoop_result s f⟩
    | cons o rest =>
      exact ⟨_, .loop hr hf, (loopStep_outOfBounds s f o rest).trans hb, .inl (loopStep_result s f o rest)⟩
  | none =>
    cases hm : s.mailbox with
    | cons e rest => exact ⟨_, .dispatch hr (hm.trans rfl), hb, .inl rfl⟩
    | nil =>
      cases hq : s.requests with
      | cons r post =>
        -- with no loop running, the answer's slot is in bounds
        obtain ⟨p, hk, hu, hg⟩ := hs.sized.asked r (by simp [hq])
        have hpg : p.guarded = false := Bool.eq_false_iff.2 fun h => by
          obtain ⟨f, hf, -⟩ := hg h
          rw [hr] at hf
          cases hf
        have hin : InBounds { s with requests := [] ++ post } (.child r.node r.childInd) := ⟨p, hk, hpg, hu hpg⟩
        exact ⟨_, @TailStep.replyOk byIn s [] post r hq,
          (deliver_inBounds _ _ _ { s with requests := [] ++ post } ((NodesAlike.of_nodes rfl).made hs.sized.made)
            hin).trans hb,
          deliver_ok_result _ _ _ _⟩
      | nil =>
        exfalso
        obtain ⟨hpl, hc⟩ := hs.faithful_emulateTx ho htx hb
        obtain ⟨p, hp⟩ : ∃ p, s.nodes[0]? = some p :=
          ⟨_, List.getElem?_eq_getElem (List.length_pos.2 hs.live.nonempty)⟩
        have hset := hs.live.root 0 p hp (idle_all_fired hpl hc hs.sized hs.live hr hm hq 0 p hp)
          ((hpl.root 0 p hp).2 rfl)
        simp [hres] at hset

/-- A run with no write out of bounds that can go no further has set
`promise_`: to the tree `emulateTx` builds, unless an emulator reported an
error. -/
theorem stuck_run_sets_promise (ho : Ordered byIn S L) (htx : S tx) (hs : TailReachable byIn tx s)
    (hb : s.outOfBounds = false) (hend : ∀ s', ¬TailStep byIn s s') :
    ∃ res, s.result = some res ∧ ∀ t, res = .ok t → t = emulateTx byIn (L + 1) tx := by
  cases hres : s.result with
  | none =>
    obtain ⟨s', h, -⟩ := hs.good_step ho htx hb hres
    exact absurd h (hend s')
  | some res =>
    refine ⟨res, rfl, fun t ht => ?_⟩
    obtain ⟨-, hc⟩ := hs.faithful_emulateTx ho htx hb
    exact hc.result t (by rw [hres, ht])

/-- The run of the transaction whose one out-message leaves the block that
answers the emulation after the loop can go no further, with `promise_` set to
the tree `emulateTx` builds. -/
theorem escapingTx_run_sets_promise :
    ∃ s, TailReachable StdMap.empty escapingTx s ∧ s.outOfBounds = false ∧
      (∀ s', ¬TailStep StdMap.empty s s') ∧
      ∃ res, s.result = some res ∧ ∀ t, res = .ok t → t = emulateTx StdMap.empty 3 escapingTx := by
  have hs := (((TailReachable.init : TailReachable StdMap.empty escapingTx _).step (.loop rfl rfl)).step
    (.finish rfl rfl)).step (@TailStep.replyOk StdMap.empty _ [] [] _ rfl)
  refine ⟨_, hs, rfl, ?hend, stuck_run_sets_promise escapingTx_ordered rfl hs rfl ?hend⟩
  intro s' h
  rcases h.busy with h | h | h <;> exact h rfl

theorem TailReachable.reaches_emulateTx (ho : Ordered byIn S L) (htx : S tx) :
    ∀ (n : Nat) (s : State), s.rank byIn (L + 1) < n → TailReachable byIn tx s → s.outOfBounds = false →
      (∀ e, s.result ≠ some (.error e)) →
      ∃ s', TailReachable byIn tx s' ∧ s'.result = some (.ok (emulateTx byIn (L + 1) tx))
  | 0, _, hn, _, _, _ => absurd hn (Nat.not_lt_zero _)
  | n + 1, s, hn, hs, hb, hu => by
    cases hres : s.result with
    | none =>
      obtain ⟨s', hst, hb', hr'⟩ := hs.good_step ho htx hb hres
      have hrank := hst.rank_succ ho (hs.queued ho.feeds_mem htx)
      refine TailReachable.reaches_emulateTx ho htx n s' (by omega) (hs.step hst) hb' fun e he => ?_
      rcases hr' with h | ⟨t, h⟩
      · rw [h, hres] at he
        cases he
      · rw [h] at he
        cases he
    | some res =>
      cases res with
      | error e => exact absurd hres (hu e)
      | ok t =>
        obtain ⟨-, hc⟩ := hs.faithful_emulateTx ho htx hb
        exact ⟨s, hs, by rw [hres, hc.result t hres]⟩

/-- Whatever the block, the actor has a run that hands `promise_` the tree
`emulateTx` builds: the one in which each emulator answers with its subtree once
no loop runs. -/
theorem exists_run_to_emulateTx (ho : Ordered byIn S L) (htx : S tx) :
    ∃ s, TailReachable byIn tx s ∧ s.result = some (.ok (emulateTx byIn (L + 1) tx)) :=
  TailReachable.reaches_emulateTx ho htx _ _ (Nat.lt_succ_self _) .init rfl
    fun _ h => by simp [State.init, beginEmulate] at h

/-- The transaction whose one out-message leaves the block has such a run. -/
theorem escapingTx_reaches_emulateTx :
    ∃ s, TailReachable StdMap.empty escapingTx s ∧ s.result = some (.ok (emulateTx StdMap.empty 3 escapingTx)) :=
  exists_run_to_emulateTx escapingTx_ordered rfl

end End

end TraceTailEmulator

end TonIndex
