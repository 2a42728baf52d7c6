import TonIndex.Emulator.TraceTree

/-!
`TraceTailEmulator` builds a trace asynchronously: `emulate_tx` makes a node and,
for each out-message that gets a slot, takes a subpromise whose callback writes
slot `child_ind` of the node's `children`, a vector sized only when the loop is
over. A consumer in the block comes back to the actor after the running handler;
a `TraceEmulatorImpl` answers from its own thread, and may write before the vector
is sized. The state records such a write in `outOfBounds`.
-/

set_option autoImplicit false

namespace TonIndex

namespace TraceTailEmulator

/-- Where the promise of an `emulate_tx` call goes: the promise of `start_up`,
which sends `trace_root_received` or `trace_error`, or the callback that fills
slot `childInd` of the parent node. -/
inductive Target
  | root
  | child (parent childInd : Nat)

/-- The `TraceNode` an `emulate_tx` call makes, with the `MultiPromise` it
waits on: the subpromises not yet set, whether the init guard is still held,
and whether the promise was set. -/
structure NodeObj where
  tx : TransactionInfo
  children : List (Option TraceNode)
  target : Target
  pending : Nat
  guarded : Bool
  fired : Bool

def NodeObj.tree (p : NodeObj) : TraceNode :=
  .observed p.tx.hash p.tx.inMsgHash (p.children.filterMap id)

def resize (l : List (Option TraceNode)) (n : Nat) : List (Option TraceNode) :=
  l.take n ++ List.replicate (n - l.length) none

@[simp] theorem length_resize (l : List (Option TraceNode)) (n : Nat) : (resize l n).length = n := by
  simp only [resize, List.length_append, List.length_take, List.length_replicate]
  omega

structure Frame where
  node : Nat
  rest : List OutMsgInfo
  childInd : Nat

structure Request where
  msgHash : Bits256
  destination : StdAddress
  node : Nat
  childInd : Nat

/-- The nodes the calls made (parents first), the `emulate_tx` closures the
actor sent itself, the loop that runs, the emulations in flight, what
`promise_` got, and whether a callback wrote past the end of a vector. -/
structure State where
  nodes : List NodeObj
  mailbox : List (TransactionInfo × Target)
  running : Option Frame
  requests : List Request
  result : Option (Except Status TraceNode)
  outOfBounds : Bool

namespace State

def beginEmulate (s : State) (tx : TransactionInfo) (tgt : Target) : State :=
  { s with nodes := s.nodes ++ [⟨tx, [], tgt, 0, true, false⟩],
           running := some ⟨s.nodes.length, tx.outMsgs, 0⟩ }

def init (tx : TransactionInfo) : State := beginEmulate ⟨[], [], none, [], none, false⟩ tx .root

end State

/-- The promise of a call gets `res`: at the root `promise_`, at a slot the callback,
which writes the slot (out of bounds past the end of the vector) and sets its
subpromise, and so on up the tree. -/
def deliver : Nat → Target → Except Status TraceNode → State → State
  | _, .root, res, s => { s with result := some res }
  | 0, .child _ _, _, s => s
  | n + 1, .child k _, .error e, s =>
    match s.nodes[k]? with
    | none => s
    | some p =>
      let s' := { s with nodes := s.nodes.set k { p with pending := p.pending - 1, fired := true } }
      if p.fired then s' else deliver n p.target (.error e) s'
  | n + 1, .child k i, .ok t, s =>
    match s.nodes[k]? with
    | none => s
    | some p =>
      let p' := { p with children := p.children.set i (some t), pending := p.pending - 1 }
      let s' := { s with outOfBounds := s.outOfBounds || decide (p.children.length ≤ i) }
      if p'.pending = 0 ∧ p'.guarded = false ∧ p'.fired = false then
        deliver n p.target (.ok p'.tree) { s' with nodes := s.nodes.set k { p' with fired := true } }
      else { s' with nodes := s.nodes.set k p' }

namespace State

/-- One turn of the loop over `tx.out_msgs`. A message that gets a slot takes a
subpromise and `child_ind`; its consumer in the block is sent to the actor
itself, any other message to a `TraceEmulatorImpl`. -/
def loopStep (byIn : StdMap Bits256 TransactionInfo) (s : State) (f : Frame) (o : OutMsgInfo)
    (rest : List OutMsgInfo) : State :=
  match o.slot with
  | none => { s with running := some { f with rest := rest } }
  | some dest =>
    let s' := { s with nodes := s.nodes.modify (fun p => { p with pending := p.pending + 1 }) f.node,
                       running := some ⟨f.node, rest, f.childInd + 1⟩ }
    match byIn o.hash with
    | some c => { s' with mailbox := s.mailbox ++ [(c, .child f.node f.childInd)] }
    | none => { s' with requests := s.requests ++ [⟨o.hash, dest, f.node, f.childInd⟩] }

/-- The end of `emulate_tx`: `children.resize(child_ind)`, then the init guard
goes; with no subpromise left, the node's tree is handed on. -/
def finishLoop (s : State) (f : Frame) : State :=
  match s.nodes[f.node]? with
  | none => { s with running := none }
  | some p =>
    let p' := { p with children := resize p.children f.childInd, guarded := false }
    if p'.pending = 0 ∧ p'.fired = false then
      deliver s.nodes.length p.target (.ok p'.tree)
        { s with nodes := s.nodes.set f.node { p' with fired := true }, running := none }
    else { s with nodes := s.nodes.set f.node p', running := none }

end State

open State

/-- What can happen next: the actor runs the loop of its handler on or takes the next
closure it sent itself, and at any time an emulator answers a request from its own
thread. -/
inductive TailStep (byIn : StdMap Bits256 TransactionInfo) : State → State → Prop
  | dispatch {s : State} {tx : TransactionInfo} {tgt : Target} {rest : List (TransactionInfo × Target)} :
      s.running = none → s.mailbox = (tx, tgt) :: rest →
      TailStep byIn s ({ s with mailbox := rest }.beginEmulate tx tgt)
  | loop {s : State} {f : Frame} {o : OutMsgInfo} {rest : List OutMsgInfo} :
      s.running = some f → f.rest = o :: rest → TailStep byIn s (s.loopStep byIn f o rest)
  | finish {s : State} {f : Frame} :
      s.running = some f → f.rest = [] → TailStep byIn s (s.finishLoop f)
  | replyOk {s : State} {pre post : List Request} {r : Request} :
      s.requests = pre ++ r :: post →
      TailStep byIn s (deliver s.nodes.length (.child r.node r.childInd)
        (.ok (.emulated r.msgHash r.destination)) { s with requests := pre ++ post })
  | replyError {s : State} {pre post : List Request} {r : Request} (e : Status) :
      s.requests = pre ++ r :: post →
      TailStep byIn s (deliver s.nodes.length (.child r.node r.childInd) (.error e)
        { s with requests := pre ++ post })

inductive TailReachable (byIn : StdMap Bits256 TransactionInfo) (tx : TransactionInfo) : State → Prop
  | init : TailReachable byIn tx (State.init tx)
  | step {s s' : State} : TailReachable byIn tx s → TailStep byIn s s' → TailReachable byIn tx s'

variable {byIn : StdMap Bits256 TransactionInfo} {tx : TransactionInfo}

theorem deliver_outOfBounds : ∀ (n : Nat) (tgt : Target) (res : Except Status TraceNode) (s : State),
    s.outOfBounds = true → (deliver n tgt res s).outOfBounds = true
  | 0, .root, _, _, h | _ + 1, .root, _, _, h | 0, .child _ _, _, _, h => h
  | n + 1, .child k _, .error _, s, h => by
    simp only [deliver]
    split
    · exact h
    · split
      · exact h
      · exact deliver_outOfBounds n _ _ _ h
  | n + 1, .child k i, .ok _, s, h => by
    simp only [deliver]
    split
    · exact h
    · split
      · exact deliver_outOfBounds n _ _ _ (by simp [h])
      · simp [h]

theorem deliver_ok_outOfBounds {s : State} {k i : Nat} {p : NodeObj} (hk : s.nodes[k]? = some p)
    (hi : p.children.length ≤ i) (n : Nat) (t : TraceNode) :
    (deliver (n + 1) (.child k i) (.ok t) s).outOfBounds = true := by
  simp only [deliver, hk]
  split
  · exact deliver_outOfBounds n _ _ _ (by simp [hi])
  · simp [hi]

theorem map_getElem?_addPending {β : Type} (g : NodeObj → β)
    (hg : ∀ p : NodeObj, g { p with pending := p.pending + 1 } = g p) (l : List NodeObj) (k j : Nat) :
    ((l.modify (fun p => { p with pending := p.pending + 1 }) k)[j]?).map g = (l[j]?).map g := by
  rw [List.getElem?_modify]
  cases l[j]? with
  | none => rfl
  | some p => simp only [Option.map_eq_map, Option.map_some']; split <;> simp [hg]

theorem loopStep_children (s : State) (f : Frame) (o : OutMsgInfo) (rest : List OutMsgInfo) (k : Nat) :
    ((s.loopStep byIn f o rest).nodes[k]?).map NodeObj.children = (s.nodes[k]?).map NodeObj.children := by
  unfold loopStep
  split
  · rfl
  · split <;> exact map_getElem?_addPending NodeObj.children (fun _ => rfl) _ _ _

theorem TailReachable.walk : ∀ (pre : List OutMsgInfo) {s : State} {k ci : Nat} {rest : List OutMsgInfo},
    TailReachable byIn tx s → s.running = some ⟨k, pre ++ rest, ci⟩ →
    ∃ (s' : State) (ci' : Nat), TailReachable byIn tx s' ∧ s'.running = some ⟨k, rest, ci'⟩ ∧
      ∀ j : Nat, (s'.nodes[j]?).map NodeObj.children = (s.nodes[j]?).map NodeObj.children
  | [], s, _, ci, _, hs, hr => ⟨s, ci, hs, hr, fun _ => rfl⟩
  | o :: pre, s, k, ci, rest, hs, hr => by
    obtain ⟨ci₁, h₁⟩ : ∃ ci₁, (s.loopStep byIn ⟨k, o :: pre ++ rest, ci⟩ o (pre ++ rest)).running =
        some ⟨k, pre ++ rest, ci₁⟩ := by
      unfold loopStep
      split
      · exact ⟨ci, rfl⟩
      · split <;> exact ⟨ci + 1, rfl⟩
    obtain ⟨s', ci', hs', hr', hc⟩ := TailReachable.walk pre (hs.step (.loop hr rfl)) h₁
    exact ⟨s', ci', hs', hr', fun j => (hc j).trans (loopStep_children _ _ _ _ j)⟩

/-- When the transaction has an out-message that gets a slot and whose consumer
is not in the block, some run has the emulator answer before the loop is over:
its callback writes `children[child_ind]` into the vector while it is still
empty. -/
theorem early_reply_writes_out_of_bounds {o : OutMsgInfo} {dest : StdAddress} (ho : o ∈ tx.outMsgs)
    (hd : o.slot = some dest) (hb : byIn o.hash = none) :
    ∃ s, TailReachable byIn tx s ∧ s.outOfBounds = true := by
  obtain ⟨pre, post, hsplit⟩ := List.append_of_mem ho
  obtain ⟨s, ci, hs, hrun, hc⟩ := TailReachable.walk pre (TailReachable.init : TailReachable byIn tx _)
    (by simp [State.init, State.beginEmulate, hsplit] : (State.init tx).running = some ⟨0, pre ++ o :: post, 0⟩)
  -- the loop reaches `o` and asks an emulator for it
  have hreq : (s.loopStep byIn ⟨0, o :: post, ci⟩ o post).requests = s.requests ++ [⟨o.hash, dest, 0, ci⟩] := by
    simp [loopStep, hd, hb]
  -- the root's vector is still empty
  obtain ⟨p, hp, hpc⟩ :
      ∃ p, (s.loopStep byIn ⟨0, o :: post, ci⟩ o post).nodes[0]? = some p ∧ p.children = [] := by
    have h := (@loopStep_children byIn s ⟨0, o :: post, ci⟩ o post 0).trans (hc 0)
    cases h' : (s.loopStep byIn ⟨0, o :: post, ci⟩ o post).nodes[0]? with
    | none => simp [h', State.init, State.beginEmulate] at h
    | some p => exact ⟨p, rfl, by simpa [h', State.init, State.beginEmulate] using h⟩
  obtain ⟨n, hn⟩ : ∃ n, (s.loopStep byIn ⟨0, o :: post, ci⟩ o post).nodes.length = n + 1 :=
    ⟨_, (Nat.succ_pred_eq_of_pos (List.getElem?_eq_some_iff.1 hp).1).symm⟩
  refine ⟨_, (hs.step (.loop hrun rfl)).step (.replyOk hreq), ?_⟩
  rw [hn]
  refine deliver_ok_outOfBounds ?_ (by simp [hpc] : p.children.length ≤ ci) n _
  exact hp

def escapingMsg : OutMsgInfo := ⟨Bits256.ofByte 143, false, some ⟨0, Bits256.ofByte 144⟩⟩

def escapingTx : TransactionInfo :=
  ⟨⟨0, Bits256.ofByte 140⟩, Bits256.ofByte 141, 1, Bits256.ofByte 142, true, [escapingMsg],
    some (Bits256.ofByte 142)⟩

theorem escapingTx_out_of_bounds :
    escapingMsg ∈ escapingTx.outMsgs ∧ escapingMsg.slot = some ⟨0, Bits256.ofByte 144⟩ ∧
      (StdMap.empty : StdMap Bits256 TransactionInfo) escapingMsg.hash = none ∧
      ∃ s, TailReachable StdMap.empty escapingTx s ∧ s.outOfBounds = true :=
  ⟨List.mem_singleton_self _, rfl, rfl,
    early_reply_writes_out_of_bounds (List.mem_singleton_self _) rfl rfl⟩

def NodeObj.shape (p : NodeObj) : Bool × Nat × Target × TransactionInfo :=
  (p.guarded, p.children.length, p.target, p.tx)

theorem NodeObj.shape_eq {p q : NodeObj} :
    p.shape = q.shape ↔ p.guarded = q.guarded ∧ p.children.length = q.children.length ∧
      p.target = q.target ∧ p.tx = q.tx := by
  simp [NodeObj.shape]

structure NodesAlike (s s' : State) : Prop where
  shape : ∀ k : Nat, (s'.nodes[k]?).map NodeObj.shape = (s.nodes[k]?).map NodeObj.shape
  fired : ∀ (k : Nat) (p' : NodeObj), s'.nodes[k]? = some p' → p'.fired = false →
    ∃ p, s.nodes[k]? = some p ∧ p.fired = false

structure Settles (s s' : State) extends NodesAlike s s' : Prop where
  running : s'.running = s.running
  mailbox : s'.mailbox = s.mailbox
  requests : s'.requests = s.requests

section Alike

variable {s s' s'' : State}

theorem NodesAlike.of_nodes (h : s'.nodes = s.nodes) : NodesAlike s s' :=
  ⟨fun k => by rw [h], fun _ p' hk hf => ⟨p', h ▸ hk, hf⟩⟩

theorem NodesAlike.trans (h₁ : NodesAlike s s') (h₂ : NodesAlike s' s'') : NodesAlike s s'' :=
  ⟨fun k => (h₂.shape k).trans (h₁.shape k), fun k p hk hf =>
    let ⟨q, hq, hqf⟩ := h₂.fired k p hk hf
    h₁.fired k q hq hqf⟩

theorem Settles.trans (h₁ : Settles s s') (h₂ : Settles s' s'') : Settles s s'' :=
  ⟨h₁.toNodesAlike.trans h₂.toNodesAlike, h₂.running.trans h₁.running, h₂.mailbox.trans h₁.mailbox,
    h₂.requests.trans h₁.requests⟩

theorem NodesAlike.node (h : NodesAlike s s') {k : Nat} {p : NodeObj} (hk : s.nodes[k]? = some p) :
    ∃ p', s'.nodes[k]? = some p' ∧ p'.shape = p.shape := by
  have e := h.shape k
  rw [hk] at e
  cases hk' : s'.nodes[k]? with
  | none => simp [hk'] at e
  | some p' => exact ⟨p', rfl, by simpa [hk'] using e⟩

theorem NodesAlike.node' (h : NodesAlike s s') {k : Nat} {p' : NodeObj} (hk : s'.nodes[k]? = some p') :
    ∃ p, s.nodes[k]? = some p ∧ p'.shape = p.shape := by
  have e := h.shape k
  rw [hk] at e
  cases hk' : s.nodes[k]? with
  | none => simp [hk'] at e
  | some p => exact ⟨p, rfl, by simpa [hk'] using e⟩

theorem getElem?_set_eq_some {α : Type} {l : List α} {k j : Nat} {a b : α} (h : (l.set k a)[j]? = some b) :
    (k = j ∧ b = a) ∨ (k ≠ j ∧ l[j]? = some b) := by
  rw [List.getElem?_set] at h
  by_cases hk : k = j
  · rw [if_pos hk] at h
    split at h
    · exact .inl ⟨hk, (Option.some.inj h).symm⟩
    · cases h
  · rw [if_neg hk] at h
    exact .inr ⟨hk, h⟩

theorem nodesAlike_set {k : Nat} {p q : NodeObj} (hk : s.nodes[k]? = some p)
    (hn : s'.nodes = s.nodes.set k q) (hs : q.shape = p.shape) (hf : q.fired = false → p.fired = false) :
    NodesAlike s s' := by
  have hlt : k < s.nodes.length := (List.getElem?_eq_some_iff.1 hk).1
  constructor
  · intro j
    rw [hn, List.getElem?_set]
    split_ifs with h
    · subst h; simp [hk, hs]
    · rfl
  · intro j p' hj hf'
    rcases getElem?_set_eq_some (hn ▸ hj) with ⟨rfl, rfl⟩ | ⟨-, hj⟩
    · exact ⟨p, hk, hf hf'⟩
    · exact ⟨p', hj, hf'⟩

end Alike

theorem deliver_settles : ∀ (n : Nat) (tgt : Target) (res : Except Status TraceNode) (s : State),
    Settles s (deliver n tgt res s)
  | 0, .root, _, _ | _ + 1, .root, _, _ | 0, .child _ _, _, _ => ⟨.of_nodes rfl, rfl, rfl, rfl⟩
  | n + 1, .child k _, .error _, s => by
    simp only [deliver]
    split
    · exact ⟨.of_nodes rfl, rfl, rfl, rfl⟩
    · rename_i p hk
      have h : Settles s { s with nodes := s.nodes.set k { p with pending := p.pending - 1, fired := true } } :=
        ⟨nodesAlike_set hk rfl rfl (by simp), rfl, rfl, rfl⟩
      split
      · exact h
      · exact h.trans (deliver_settles n _ _ _)
  | n + 1, .child k _, .ok _, s => by
    simp only [deliver]
    split
    · exact ⟨.of_nodes rfl, rfl, rfl, rfl⟩
    · rename_i p hk
      split
      · refine Settles.trans ?_ (deliver_settles n _ _ _)
        exact ⟨nodesAlike_set hk rfl (by simp [NodeObj.shape]) (by simp), rfl, rfl, rfl⟩
      · exact ⟨nodesAlike_set hk rfl (by simp [NodeObj.shape]) id, rfl, rfl, rfl⟩

theorem deliver_error_outOfBounds : ∀ (n : Nat) (tgt : Target) (e : Status) (s : State),
    (deliver n tgt (.error e) s).outOfBounds = s.outOfBounds
  | 0, .root, _, _ | _ + 1, .root, _, _ | 0, .child _ _, _, _ => rfl
  | n + 1, .child k _, e, s => by
    simp only [deliver]
    split
    · rfl
    · split
      · rfl
      · exact deliver_error_outOfBounds n _ _ _

def InBounds (s : State) : Target → Prop
  | .root => True
  | .child k i => ∃ p, s.nodes[k]? = some p ∧ p.guarded = false ∧ i < p.children.length

def SlotReady (s : State) (k i : Nat) : Prop :=
  ∃ p, s.nodes[k]? = some p ∧ (p.guarded = false → i < p.children.length) ∧
    (p.guarded = true → ∃ f, s.running = some f ∧ f.node = k ∧ i < f.childInd)

def Made (s : State) : Prop :=
  ∀ (m : Nat) (q : NodeObj), s.nodes[m]? = some q → q.fired = false → InBounds s q.target

/-- What the actor's order of work keeps: only the running node holds its init guard,
each consumer sent to the actor and each emulation asked for has a ready slot, and each
unset promise goes to a slot in bounds. -/
structure Sized (s : State) : Prop where
  guarded : ∀ (k : Nat) (p : NodeObj), s.nodes[k]? = some p → p.guarded = true →
    ∃ f, s.running = some f ∧ f.node = k
  running : ∀ f, s.running = some f → ∃ p, s.nodes[f.node]? = some p ∧ p.guarded = true
  queued : ∀ (c : TransactionInfo) (k i : Nat), (c, Target.child k i) ∈ s.mailbox → SlotReady s k i
  asked : ∀ r ∈ s.requests, SlotReady s r.node r.childInd
  made : Made s

section Sized

variable {s s' : State}

theorem NodesAlike.inBounds (h : NodesAlike s s') : ∀ {t : Target}, InBounds s t → InBounds s' t
  | .root, _ => trivial
  | .child _ _, ⟨_, hk, hg, hi⟩ => by
    obtain ⟨p', hk', e⟩ := h.node hk
    obtain ⟨eg, el, -⟩ := NodeObj.shape_eq.1 e
    exact ⟨p', hk', eg.trans hg, el ▸ hi⟩

theorem NodesAlike.made (h : NodesAlike s s') (hm : Made s) : Made s' := fun m q' hq' hf => by
  obtain ⟨q, hq, hqf⟩ := h.fired m q' hq' hf
  obtain ⟨q'', hq'', e⟩ := h.node hq
  rw [hq'] at hq''
  cases hq''
  rw [(NodeObj.shape_eq.1 e).2.2.1]
  exact h.inBounds (hm m q hq hqf)

theorem NodesAlike.slotReady (h : NodesAlike s s')
    (hr : ∀ f, s.running = some f → ∃ f', s'.running = some f' ∧ f'.node = f.node ∧ f.childInd ≤ f'.childInd)
    {k i : Nat} : SlotReady s k i → SlotReady s' k i
  | ⟨_, hk, hu, hg⟩ => by
    obtain ⟨p', hk', e⟩ := h.node hk
    obtain ⟨eg, el, -⟩ := NodeObj.shape_eq.1 e
    refine ⟨p', hk', fun h' => el ▸ hu (eg ▸ h'), fun h' => ?_⟩
    obtain ⟨f, hf, rfl, hi⟩ := hg (eg ▸ h')
    obtain ⟨f', hf', hn, hle⟩ := hr f hf
    exact ⟨f', hf', hn, by omega⟩

theorem Sized.settles (hs : Sized s) (h : Settles s s') : Sized s' where
  guarded k p' hk hg := by
    obtain ⟨p, hp, e⟩ := h.node' hk
    rw [h.running]
    exact hs.guarded k p hp ((NodeObj.shape_eq.1 e).1 ▸ hg)
  running f hf := by
    obtain ⟨p, hp, hg⟩ := hs.running f (h.running ▸ hf)
    obtain ⟨p', hp', e⟩ := h.node hp
    exact ⟨p', hp', (NodeObj.shape_eq.1 e).1.trans hg⟩
  queued c k i hc := h.slotReady (fun f hf => ⟨f, h.running ▸ hf, rfl, le_rfl⟩)
    (hs.queued c k i (h.mailbox ▸ hc))
  asked r hr := h.slotReady (fun f hf => ⟨f, h.running ▸ hf, rfl, le_rfl⟩) (hs.asked r (h.requests ▸ hr))
  made := h.made hs.made

theorem Sized.unguarded (hs : Sized s) {k : Nat} {p : NodeObj} (hk : s.nodes[k]? = some p)
    (hn : ∀ f, s.running = some f → f.node ≠ k) : p.guarded = false := by
  cases hg : p.guarded
  · rfl
  · obtain ⟨f, hf, rfl⟩ := hs.guarded k p hk hg
    exact absurd rfl (hn f hf)

theorem Sized.init (tx : TransactionInfo) : Sized (State.init tx) where
  guarded k p hk _ := by
    cases k with
    | zero => exact ⟨_, rfl, rfl⟩
    | succ k => simp [State.init, beginEmulate] at hk
  running f hf := by
    simp only [State.init, beginEmulate, Option.some.injEq] at hf
    subst hf
    exact ⟨_, rfl, rfl⟩
  queued _ _ _ h := by simp [State.init, beginEmulate] at h
  asked _ h := by simp [State.init, beginEmulate] at h
  made m q hq _ := by
    cases m with
    | zero => simp only [State.init, beginEmulate] at hq; cases hq; trivial
    | succ m => simp [State.init, beginEmulate] at hq

theorem InBounds.snoc {t : Target} (x : NodeObj) (h : InBounds s t)
    (hn : s'.nodes = s.nodes ++ [x]) : InBounds s' t := by
  cases t with
  | root => trivial
  | child k i =>
    obtain ⟨p, hk, hg, hi⟩ := h
    exact ⟨p, by rw [hn, List.getElem?_append_left (List.getElem?_eq_some_iff.1 hk).1, hk], hg, hi⟩

theorem Sized.dispatch (hs : Sized s) {c : TransactionInfo} {tgt : Target}
    {rest : List (TransactionInfo × Target)} (hr : s.running = none) (hm : s.mailbox = (c, tgt) :: rest) :
    Sized ({ s with mailbox := rest }.beginEmulate c tgt) := by
  -- with no loop running, every ready slot is in bounds
  have hidle : ∀ {k i}, SlotReady s k i → InBounds s (.child k i) := fun ⟨p, hk, hu, _⟩ =>
    have hg := hs.unguarded hk (by simp [hr])
    ⟨p, hk, hg, hu hg⟩
  have hready : ∀ {k i}, SlotReady s k i → SlotReady ({ s with mailbox := rest }.beginEmulate c tgt) k i :=
    fun h =>
      let ⟨p, hk, hg, hi⟩ := InBounds.snoc _ (hidle h) rfl
      ⟨p, hk, fun _ => hi, fun h' => absurd (hg.symm.trans h') (by decide)⟩
  refine ⟨fun k p hk hg => ?_, fun f hf => ?_, fun c' k i hc => hready (hs.queued c' k i ?_),
    fun r hq => hready (hs.asked r hq), fun m q hq hf => ?_⟩
  · simp only [beginEmulate, List.getElem?_append] at hk
    split at hk
    · exact absurd (hs.guarded k p hk hg) (by simp [hr])
    · refine ⟨_, rfl, ?_⟩
      cases h : k - s.nodes.length with
      | zero => simp only; omega
      | succ j => simp [h] at hk
  · simp only [beginEmulate, Option.some.injEq] at hf
    subst hf
    exact ⟨_, List.getElem?_concat_length _ _, rfl⟩
  · simp only [beginEmulate] at hc
    simp [hm, hc]
  · simp only [beginEmulate, List.getElem?_append] at hq
    split at hq
    · exact InBounds.snoc _ (hs.made m q hq hf) rfl
    · cases h : m - s.nodes.length with
      | zero =>
        simp only [h, List.getElem?_cons_zero, Option.some.injEq] at hq
        subst hq
        cases tgt with
        | root => trivial
        | child k i => exact InBounds.snoc _ (hidle (hs.queued c k i (by simp [hm]))) rfl
      | succ j => simp [h] at hq

theorem Sized.of_loop (hs : Sized s) {f : Frame} (hr : s.running = some f) (ha : NodesAlike s s')
    {rest : List OutMsgInfo} {ci : Nat} (hr' : s'.running = some ⟨f.node, rest, ci⟩) (hci : f.childInd ≤ ci)
    (hq : ∀ (c : TransactionInfo) (k i : Nat), (c, Target.child k i) ∈ s'.mailbox →
      (c, .child k i) ∈ s.mailbox ∨ (k = f.node ∧ i < ci))
    (ha' : ∀ r ∈ s'.requests, r ∈ s.requests ∨ (r.node = f.node ∧ r.childInd < ci)) : Sized s' := by
  have hrun : ∀ f₀, s.running = some f₀ →
      ∃ f', s'.running = some f' ∧ f'.node = f₀.node ∧ f₀.childInd ≤ f'.childInd :=
    fun f₀ h₀ => by
      rw [hr, Option.some.injEq] at h₀
      subst h₀
      exact ⟨_, hr', rfl, hci⟩
  obtain ⟨p, hp, hpg⟩ := hs.running f hr
  obtain ⟨p', hp', e⟩ := ha.node hp
  have hpg' : p'.guarded = true := (NodeObj.shape_eq.1 e).1.trans hpg
  have hnew : ∀ i, i < ci → SlotReady s' f.node i := fun i hi =>
    ⟨p', hp', fun h => absurd (hpg'.symm.trans h) (by decide), fun _ => ⟨_, hr', rfl, hi⟩⟩
  refine ⟨fun k q' hk hg => ?_, fun f' hf' => ?_, fun c k i hc => ?_, fun r hq' => ?_, ha.made hs.made⟩
  · obtain ⟨q, hq₀, e'⟩ := ha.node' hk
    obtain ⟨f₀, hf₀, rfl⟩ := hs.guarded k q hq₀ ((NodeObj.shape_eq.1 e').1 ▸ hg)
    rw [hr, Option.some.injEq] at hf₀
    subst hf₀
    exact ⟨_, hr', rfl⟩
  · rw [hr', Option.some.injEq] at hf'
    subst hf'
    exact ⟨p', hp', hpg'⟩
  · rcases hq c k i hc with h | ⟨rfl, hi⟩
    · exact ha.slotReady hrun (hs.queued c k i h)
    · exact hnew i hi
  · rcases ha' r hq' with h | ⟨hn, hi⟩
    · exact ha.slotReady hrun (hs.asked r h)
    · exact hn ▸ hnew _ hi

theorem Sized.loopStep (hs : Sized s) {f : Frame} (hr : s.running = some f) (o : OutMsgInfo)
    (rest : List OutMsgInfo) : Sized (s.loopStep byIn f o rest) := by
  have ha : ∀ s' : State, s'.nodes = s.nodes.modify (fun p => { p with pending := p.pending + 1 }) f.node →
      NodesAlike s s' := by
    intro s' hn
    refine ⟨fun k => hn ▸ map_getElem?_addPending NodeObj.shape (fun _ => rfl) _ _ _, fun k p' hk hf => ?_⟩
    have e := map_getElem?_addPending NodeObj.fired (fun _ => rfl) s.nodes f.node k
    rw [← hn, hk] at e
    cases h : s.nodes[k]? with
    | none => simp [h] at e
    | some p => exact ⟨p, rfl, by simp_all⟩
  unfold State.loopStep
  split
  · exact hs.of_loop hr (.of_nodes rfl) rfl le_rfl (fun _ _ _ h => .inl h) (fun _ h => .inl h)
  · split
    · refine hs.of_loop hr (ha _ rfl) rfl (Nat.le_succ _) (fun c k i hc => ?_) (fun _ h => .inl h)
      simp only [List.mem_append, List.mem_singleton, Prod.mk.injEq, Target.child.injEq] at hc
      rcases hc with h | ⟨-, rfl, rfl⟩
      · exact .inl h
      · exact .inr ⟨rfl, Nat.lt_succ_self _⟩
    · refine hs.of_loop hr (ha _ rfl) rfl (Nat.le_succ _) (fun _ _ _ h => .inl h) (fun r hq => ?_)
      simp only [List.mem_append, List.mem_singleton] at hq
      rcases hq with h | rfl
      · exact .inl h
      · exact .inr ⟨rfl, Nat.lt_succ_self _⟩

theorem Sized.inBounds_finish (hs : Sized s) {f : Frame} (hr : s.running = some f) (q : NodeObj) :
    ∀ {t : Target}, InBounds s t → InBounds { s with nodes := s.nodes.set f.node q, running := none } t
  | .root, _ => trivial
  | .child k i, ⟨p', hk', hg', hi⟩ => by
    obtain ⟨p, hk, hpg⟩ := hs.running f hr
    have hne : f.node ≠ k := fun h => by subst h; rw [hk, Option.some.injEq] at hk'; subst hk'; simp_all
    exact ⟨p', by rw [List.getElem?_set_ne hne, hk'], hg', hi⟩

theorem Sized.finish (hs : Sized s) {f : Frame} (hr : s.running = some f) {p q : NodeObj}
    (hk : s.nodes[f.node]? = some p) (hg : q.guarded = false) (hl : q.children.length = f.childInd)
    (ht : q.target = p.target) (hf : q.fired = false → p.fired = false) :
    Sized { s with nodes := s.nodes.set f.node q, running := none } := by
  obtain ⟨p₀, hp₀, hpg⟩ := hs.running f hr
  rw [hk, Option.some.injEq] at hp₀
  subst hp₀
  have hlt : f.node < s.nodes.length := (List.getElem?_eq_some_iff.1 hk).1
  have hget : ∀ k : Nat, (s.nodes.set f.node q)[k]? = if f.node = k then some q else s.nodes[k]? :=
    fun k => by simp only [List.getElem?_set, hlt, if_true]
  -- every other node has already given up its guard
  have hother : ∀ {k : Nat} {p' : NodeObj}, s.nodes[k]? = some p' → f.node ≠ k → p'.guarded = false :=
    fun hk' hne => hs.unguarded hk' fun f' hf' => by rw [hr, Option.some.injEq] at hf'; exact hf' ▸ hne
  have hready : ∀ {k i : Nat}, SlotReady s k i →
      SlotReady { s with nodes := s.nodes.set f.node q, running := none } k i := by
    rintro k i ⟨p', hk', hu, hgd⟩
    by_cases hne : f.node = k
    · subst hne
      rw [hk, Option.some.injEq] at hk'
      subst hk'
      obtain ⟨f', hf', -, hi⟩ := hgd hpg
      rw [hr, Option.some.injEq] at hf'
      subst hf'
      exact ⟨q, by simp only [hget, if_true], fun _ => hl ▸ hi, fun h => absurd (hg.symm.trans h) (by decide)⟩
    · have hg' := hother hk' hne
      exact ⟨p', by simp only [hget, if_neg hne, hk'], hu, fun h => absurd (hg'.symm.trans h) (by decide)⟩
  refine ⟨fun k p' hk' hg' => ?_, fun _ h => (nomatch h), fun c k i hc => hready (hs.queued c k i hc),
    fun r hq => hready (hs.asked r hq), fun m q' hq' hf' => ?_⟩
  · simp only [hget] at hk'
    split at hk'
    · cases hk'
      exact absurd (hg.symm.trans hg') (by decide)
    · exact absurd (hother hk' ‹_›) (by simp [hg'])
  · simp only [hget] at hq'
    split at hq'
    · cases hq'
      rw [ht]
      exact hs.inBounds_finish hr q (hs.made _ p hk (hf hf'))
    · exact hs.inBounds_finish hr q (hs.made m q' hq' hf')

theorem Sized.finishLoop (hs : Sized s) {f : Frame} (hr : s.running = some f) : Sized (s.finishLoop f) := by
  obtain ⟨p, hk, -⟩ := hs.running f hr
  simp only [State.finishLoop, hk]
  split
  · refine Sized.settles ?_ (deliver_settles _ _ _ _)
    exact hs.finish hr hk rfl (length_resize _ _) rfl (by simp)
  · exact hs.finish hr hk rfl (length_resize _ _) rfl id

theorem Sized.reply (hs : Sized s) {pre post : List Request} {r : Request} (hq : s.requests = pre ++ r :: post)
    (res : Except Status TraceNode) :
    Sized (deliver s.nodes.length (.child r.node r.childInd) res { s with requests := pre ++ post }) := by
  refine Sized.settles ?_ (deliver_settles _ _ _ _)
  refine ⟨hs.guarded, hs.running, hs.queued, fun r' h => hs.asked r' ?_, hs.made⟩
  rw [hq]
  simp only [List.mem_append, List.mem_cons] at h ⊢
  tauto

theorem TailStep.sized (h : TailStep byIn s s') (hs : Sized s) : Sized s' := by
  cases h with
  | dispatch hr hm => exact hs.dispatch hr hm
  | loop hr _ => exact hs.loopStep hr _ _
  | finish hr _ => exact hs.finishLoop hr
  | replyOk hq => exact hs.reply hq _
  | replyError _ hq => exact hs.reply hq _

theorem TailReachable.sized (h : TailReachable byIn tx s) : Sized s := by
  induction h with
  | init => exact Sized.init tx
  | step _ hst ih => exact hst.sized ih

theorem deliver_inBounds : ∀ (n : Nat) (tgt : Target) (t : TraceNode) (s : State), Made s → InBounds s tgt →
    (deliver n tgt (.ok t) s).outOfBounds = s.outOfBounds
  | 0, .root, _, _, _, _ | _ + 1, .root, _, _, _, _ | 0, .child _ _, _, _, _, _ => rfl
  | n + 1, .child k i, t, s, hm, ⟨p, hk, _, hi⟩ => by
    have hi' : decide (p.children.length ≤ i) = false := by simp only [decide_eq_false_iff_not]; omega
    simp only [deliver, hk]
    split
    · rename_i hc
      have ha : NodesAlike s
          { s with
            outOfBounds := s.outOfBounds || decide (p.children.length ≤ i)
            nodes := s.nodes.set k
              { p with children := p.children.set i (some t), pending := p.pending - 1, fired := true } } :=
        nodesAlike_set hk rfl (by simp [NodeObj.shape]) (by simp)
      rw [deliver_inBounds n _ _ _ (ha.made hm) (ha.inBounds (hm k p hk hc.2.2)), hi', Bool.or_false]
    · simp [hi']

theorem Sized.finishLoop_outOfBounds (hs : Sized s) {f : Frame} (hr : s.running = some f) :
    (s.finishLoop f).outOfBounds = s.outOfBounds := by
  obtain ⟨p, hk, -⟩ := hs.running f hr
  simp only [State.finishLoop, hk]
  split
  · rename_i hc
    refine deliver_inBounds _ _ _ _ ?_ (hs.inBounds_finish hr _ (hs.made _ p hk hc.2))
    refine Sized.made ?_
    exact hs.finish hr hk rfl (length_resize _ _) rfl (by simp)
  · rfl

theorem loopStep_outOfBounds (s : State) (f : Frame) (o : OutMsgInfo) (rest : List OutMsgInfo) :
    (s.loopStep byIn f o rest).outOfBounds = s.outOfBounds := by
  unfold State.loopStep
  split
  · rfl
  · split <;> rfl

/-- In every run, a write goes out of bounds only as an emulator's successful
answer for a node whose loop still runs. Were such answers handed to the actor
after the loop, no write would. -/
theorem out_of_bounds_only_early (hs : TailReachable byIn tx s) (h : TailStep byIn s s')
    (h₀ : s.outOfBounds = false) (h₁ : s'.outOfBounds = true) :
    ∃ pre r post f, s.requests = pre ++ r :: post ∧ s.running = some f ∧ f.node = r.node ∧
      s' = deliver s.nodes.length (.child r.node r.childInd) (.ok (.emulated r.msgHash r.destination))
        { s with requests := pre ++ post } := by
  have hS := hs.sized
  cases h with
  | dispatch => simp_all [beginEmulate]
  | loop => simp_all [loopStep_outOfBounds]
  | finish hr => simp_all [hS.finishLoop_outOfBounds hr]
  | replyError => simp_all [deliver_error_outOfBounds]
  | @replyOk pre post r hq =>
    obtain ⟨p, hk, hu, hg⟩ := hS.asked r (by simp [hq])
    cases hpg : p.guarded
    · have hin : InBounds { s with requests := pre ++ post } (.child r.node r.childInd) := ⟨p, hk, hpg, hu hpg⟩
      rw [deliver_inBounds _ _ _ { s with requests := pre ++ post } ((NodesAlike.of_nodes rfl).made hS.made) hin,
        h₀] at h₁
      cases h₁
    · obtain ⟨f, hf, hn, -⟩ := hg hpg
      exact ⟨pre, r, post, f, hq, hf, hn, rfl⟩

end Sized

end TraceTailEmulator

end TonIndex
