import TonIndex.Redis.Inserter

/-!
Two `TaskResultInserter` runs for one trace id, started against the same
stored state. `delete_db_subtree` makes each `HGET` as a round trip of its own,
outside `MULTI` and with no `WATCH`, so here `start_up` is a program that stops
at every `HGET`, and the two runs interleave their `HGET`s and their `EXEC`s in
any order. Every `HGET` of the run that commits first reads the starting state;
the later run's `HGET`s read the starting state up to the first `EXEC` and its
result after it (`overlapping_inserters_final_state`).
-/

set_option autoImplicit false

namespace TonIndex

/-- A computation on a Redis hash that waits for the answer of each `HGET`. -/
inductive Reads (V α : Type)
  | pure (a : α)
  | throw (e : Status)
  | diverge
  | hget (key : String) (next : Option V → Reads V α)

namespace Reads

variable {V α β : Type}

def bind : Reads V α → (α → Reads V β) → Reads V β
  | .pure a, f => f a
  | .throw e, _ => .throw e
  | .diverge, _ => .diverge
  | .hget key next, f => .hget key fun r => (next r).bind f

instance : Monad (Reads V) where
  pure := .pure
  bind := bind

def run (read : Nat → String → Option V) : Reads V α → Nat → ExceptT Status Option α
  | .pure a, _ => Pure.pure a
  | .throw e, _ => MonadExcept.throw e
  | .diverge, _ => ExceptT.lift none
  | .hget key next, i => (next (read i key)).run read (i + 1)

def runOn (get : String → Option V) : Reads V α → ExceptT Status Option α
  | .pure a => Pure.pure a
  | .throw e => MonadExcept.throw e
  | .diverge => ExceptT.lift none
  | .hget key next => (next (get key)).runOn get

theorem run_const (get : String → Option V) (p : Reads V α) (i : Nat) :
    p.run (fun _ => get) i = p.runOn get := by
  induction p generalizing i with
  | hget key next ih => exact ih _ _
  | _ => rfl

theorem runOn_bind (get : String → Option V) (p : Reads V α) (f : α → Reads V β) :
    (p >>= f).runOn get = p.runOn get >>= fun a => (f a).runOn get := by
  induction p with
  | hget key next ih => exact ih _
  | _ => rfl

theorem runOn_foldlM {γ : Type} (get : String → Option V) (f : β → γ → Reads V β) (l : List γ) (b : β) :
    (l.foldlM f b).runOn get = l.foldlM (fun b c => (f b c).runOn get) b := by
  induction l generalizing b with
  | nil => rfl
  | cons c l ih => simp only [List.foldlM_cons, runOn_bind, ih]

end Reads

namespace TaskResultInserter.Stepwise

variable {V : Type} (codec : Codec V) (traceKey : String)

/-- `delete_db_subtree`, each `HGET` answered when it is made. -/
def deleteDbSubtree : Nat → String → List String × List (String × String) →
    Reads V (List String × List (String × String))
  | 0, _, _ => .diverge
  | n + 1, key, keys => .hget key fun
    | none => pure keys
    | some v =>
      match codec.unpackNode v with
      | .error what => .throw (exception what)
      | .ok node => do
        let keys ← node.transaction.outMsgs.foldlM
          (fun keys h => deleteDbSubtree n h.toHex keys) keys
        match node.transaction.inMsg with
        | none => .throw (exception "bad optional access")
        | some m => pure (keys.1 ++ [key],
            keys.2 ++ [(node.transaction.account.toRaw, byAddrKey traceKey m)])

def visit (ext : InsertExt) (fuel : Nat) (c : Collected) : TraceTree → Reads V Collected
  | .mk root wc emulated interfaces _ =>
    match ext.parseTx root wc with
    | .error e => .throw (e.withPrefix "Failed to parse transaction: ")
    | .ok tx => do
      let keys := (c.txKeysToDelete, c.addrKeysToDelete)
      let keys ← if emulated then pure keys else
        match tx.inMsg with
        | none => .throw (exception "bad optional access")
        | some m => deleteDbSubtree codec traceKey fuel m.toHex keys
      pure ⟨keys.1, keys.2, assignInterfaces c.addrInterfaces tx.account interfaces,
        c.flattenedTrace ++ [⟨tx, emulated⟩]⟩

variable (stored : RHash V)

theorem deleteDbSubtree_runOn (n : Nat) (key : String) (keys : List String × List (String × String)) :
    (deleteDbSubtree codec traceKey n key keys).runOn stored.get =
      TaskResultInserter.deleteDbSubtree codec stored traceKey n key keys := by
  induction n generalizing key keys with
  | zero => rfl
  | succ n ih =>
    simp only [deleteDbSubtree, TaskResultInserter.deleteDbSubtree, Reads.runOn]
    rcases stored.get key with _ | v
    · rfl
    · simp only
      rcases codec.unpackNode v with what | node
      · rfl
      · simp only [Reads.runOn_bind, Reads.runOn_foldlM, ih]
        rcases node.transaction.inMsg with _ | m <;> rfl

theorem visit_runOn (ext : InsertExt) (c : Collected) (t : TraceTree) :
    (visit codec traceKey ext (stored.fields.length + 1) c t).runOn stored.get =
      TaskResultInserter.visit codec stored traceKey ext c t := by
  obtain ⟨root, wc, emulated, interfaces, _⟩ := t
  simp only [visit, TaskResultInserter.visit]
  rcases ext.parseTx root wc with e | tx
  · rfl
  · simp only
    cases emulated
    · rcases tx.inMsg with _ | m
      · rfl
      · simp only [Bool.false_eq_true, if_false, Reads.runOn_bind, deleteDbSubtree_runOn]; rfl
    · rfl

end TaskResultInserter.Stepwise

/-- `TaskResultInserter::start_up`, stopping at each `HGET`; `fuel` bounds the
depth of `delete_db_subtree`'s recursion. -/
def TaskResultInserter.Stepwise.startUp {V : Type} (ext : InsertExt) (codec : Codec V) (fuel : Nat)
    (traceId : Bits256) (t : TraceTree) : Reads V (List (RedisCmd V)) := do
  let traceKey := traceId.toHex
  let c ← t.nodes.foldlM (visit codec traceKey ext fuel) ⟨[], [], [], []⟩
  match TaskResultInserter.commands codec traceKey c with
  | .ok cmds => pure cmds
  | .error e => .throw e

/-- With every `HGET` answered by one stored state, the stepwise run is `startUp`. -/
theorem TaskResultInserter.Stepwise.startUp_runOn {V : Type} (ext : InsertExt) (codec : Codec V)
    (store : Redis V) (traceId : Bits256) (t : TraceTree) :
    (startUp ext codec ((store.hashes traceId.toHex).fields.length + 1) traceId t).runOn
      (store.hashes traceId.toHex).get = TaskResultInserter.startUp ext codec store traceId t := by
  simp only [startUp, TaskResultInserter.startUp, Reads.runOn_bind, Reads.runOn_foldlM, visit_runOn]
  congr
  funext c
  rcases TaskResultInserter.commands codec traceId.toHex c with e | cmds <;> rfl

namespace TaskResultInserter

inductive Side
  | a
  | b
  deriving DecidableEq

theorem Side.eq_or_eq_of_ne {f g : Side} (h : f ≠ g) (x : Side) : x = f ∨ x = g := by
  cases f <;> cases g <;> cases x <;> simp_all

/-- A run is at the rest of its program, or has committed its commands; `seen`
holds the state each of its `HGET`s read. -/
inductive Phase (V : Type)
  | running (rest : Reads V (List (RedisCmd V))) (seen : List (Redis V))
  | committed (cmds : List (RedisCmd V)) (seen : List (Redis V))

namespace Phase

variable {V : Type}

def rest : Phase V → Reads V (List (RedisCmd V))
  | .running rest _ => rest
  | .committed cmds _ => .pure cmds

def seen : Phase V → List (Redis V)
  | .running _ seen | .committed _ seen => seen

end Phase

structure PairState (V : Type) where
  store : Redis V
  phase : Side → Phase V
  /-- The runs in the order their `EXEC`s ran. -/
  order : List Side

section Pair

variable {V : Type} (ext : InsertExt) (codec : Codec V) (traceId : Bits256) (trees : Side → TraceTree)
  (fuel : Nat)

inductive PairStep : PairState V → PairState V → Prop
  | hget {s : PairState V} (x : Side) {key : String} {next : Option V → Reads V (List (RedisCmd V))}
      {seen : List (Redis V)} (h : s.phase x = .running (.hget key next) seen) :
      PairStep s {s with phase := (Function.update s.phase x
        (.running (next ((s.store.hashes traceId.toHex).get key)) (seen ++ [s.store])))}
  | commit {s : PairState V} (x : Side) {cmds : List (RedisCmd V)} {seen : List (Redis V)}
      (h : s.phase x = .running (.pure cmds) seen) :
      PairStep s ⟨s.store.exec cmds, Function.update s.phase x (.committed cmds seen), s.order ++ [x]⟩

/-- A run of the source that ends is a run of the model for any `fuel` above
the depth of its recursion. -/
inductive PairReachable (S : Redis V) : PairState V → Prop
  | init : PairReachable S
      ⟨S, fun x => .running (Stepwise.startUp ext codec fuel traceId (trees x)) [], []⟩
  | step {s s' : PairState V} : PairReachable S s → PairStep traceId s s' → PairReachable S s'

def answers (reads : Nat → Redis V) (i : Nat) : String → Option V :=
  ((reads i).hashes traceId.toHex).get

/-- The commands run `x` executes when its `i`-th `HGET` reads `reads i`; none
when it fails. -/
def commandsOn (x : Side) (reads : Nat → Redis V) : List (RedisCmd V) :=
  match (Stepwise.startUp ext codec fuel traceId (trees x)).run (answers traceId reads) 0 with
  | some (.ok cmds) => cmds
  | _ => []

def afterRun (S : Redis V) (x : Side) : Redis V :=
  S.exec (commandsOn ext codec traceId trees fuel x fun _ => S)

/-- Phase `p` of run `x` ends as the whole program does on any reads that
answer the `HGET`s made so far as they were answered. -/
def Follows (x : Side) (p : Phase V) : Prop :=
  ∀ reads : Nat → Redis V, (∀ i st, p.seen[i]? = some st → reads i = st) →
    (Stepwise.startUp ext codec fuel traceId (trees x)).run (answers traceId reads) 0 =
      p.rest.run (answers traceId reads) p.seen.length

def PairInv (S : Redis V) (s : PairState V) : Prop :=
  match s.order with
  | [] => s.store = S ∧ ∀ x, ∃ rest k, s.phase x = .running rest (.replicate k S)
  | [f] => ∃ cmds k, s.phase f = .committed cmds (.replicate k S) ∧ s.store = S.exec cmds ∧
      ∀ g, g ≠ f → ∃ rest k m, s.phase g = .running rest (.replicate k S ++ .replicate m (S.exec cmds))
  | [f, g] => f ≠ g ∧ ∃ cmdsf k, s.phase f = .committed cmdsf (.replicate k S) ∧
      ∃ cmdsg k m, s.phase g = .committed cmdsg (.replicate k S ++ .replicate m (S.exec cmdsf)) ∧
        s.store = (S.exec cmdsf).exec cmdsg
  | _ => False

variable {ext codec traceId trees fuel}

theorem Follows.hget {x : Side} {key : String} {next : Option V → Reads V (List (RedisCmd V))}
    {seen : List (Redis V)} (hx : Follows ext codec traceId trees fuel x (.running (.hget key next) seen))
    (st : Redis V) :
    Follows ext codec traceId trees fuel x
      (.running (next ((st.hashes traceId.toHex).get key)) (seen ++ [st])) := by
  intro reads hr
  have hlast : reads seen.length = st := hr _ _ (List.getElem?_concat_length seen st)
  rw [hx reads fun i st' h => hr i st' <| by
    simp only [Phase.seen] at h ⊢
    rwa [List.getElem?_append_left (List.getElem?_eq_some_iff.1 h).1]]
  simp [Phase.rest, Phase.seen, Reads.run, answers, hlast]

theorem follows_update {s : PairState V} (hs : ∀ y, Follows ext codec traceId trees fuel y (s.phase y))
    {x : Side} {p : Phase V} (hx : Follows ext codec traceId trees fuel x p) (y : Side) :
    Follows ext codec traceId trees fuel y (Function.update s.phase x p y) := by
  by_cases hy : y = x
  · subst hy; simpa
  · simpa [Function.update_noteq hy] using hs y

theorem PairStep.follows {s s' : PairState V} (h : PairStep traceId s s')
    (hs : ∀ y, Follows ext codec traceId trees fuel y (s.phase y)) :
    ∀ y, Follows ext codec traceId trees fuel y (s'.phase y) := by
  cases h with
  | hget x hx => exact follows_update hs ((hx ▸ hs x).hget s.store)
  | commit x hx =>
    have hc : Follows ext codec traceId trees fuel x (.running (.pure _) _) := hx ▸ hs x
    exact follows_update hs hc

theorem PairReachable.follows {S : Redis V} {s : PairState V}
    (h : PairReachable ext codec traceId trees fuel S s) :
    ∀ y, Follows ext codec traceId trees fuel y (s.phase y) := by
  induction h with
  | init => intro y reads _; rfl
  | step _ hs ih => exact hs.follows ih

theorem commandsOn_of_follows {x : Side} {cmds : List (RedisCmd V)} {seen : List (Redis V)}
    (hx : Follows ext codec traceId trees fuel x (.committed cmds seen)) {reads : Nat → Redis V}
    (hr : ∀ i st, seen[i]? = some st → reads i = st) :
    commandsOn ext codec traceId trees fuel x reads = cmds := by
  simp only [commandsOn, hx reads hr, Phase.rest, Reads.run]
  rfl

theorem reads_of_replicate {S S₁ st : Redis V} {k m i : Nat}
    (h : (List.replicate k S ++ List.replicate m S₁)[i]? = some st) : (if i < k then S else S₁) = st := by
  by_cases hi : i < k
  · rw [List.getElem?_append_left (by simpa using hi)] at h
    simp_all [List.getElem?_replicate]
  · rw [List.getElem?_append_right (by simpa using hi)] at h
    simp_all [List.getElem?_replicate]

/-- A run with steps left: at most one `EXEC` has run. -/
theorem PairInv.order_lt {S : Redis V} {s : PairState V} (hi : PairInv S s) {x : Side}
    {rest : Reads V (List (RedisCmd V))} {seen : List (Redis V)} (hx : s.phase x = .running rest seen) :
    s.order.length < 2 := by
  unfold PairInv at hi
  match s.order, hi with
  | [], _ | [_], _ => simp
  | [_, _], ⟨hfg, _, _, hf, _, _, _, hg, _⟩ =>
    rcases Side.eq_or_eq_of_ne hfg x with rfl | rfl
    · simp [hf] at hx
    · simp [hg] at hx
  | _ :: _ :: _ :: _, hi => exact hi.elim

theorem PairStep.inv {S : Redis V} {s s' : PairState V} (h : PairStep traceId s s')
    (hi : PairInv S s) : PairInv S s' := by
  cases h with
  | @hget x key next _ hx =>
    have hlt := hi.order_lt hx
    unfold PairInv at hi ⊢
    match ho : s.order, hi, hlt with
    | [], ⟨hS, hp⟩, _ =>
      refine ⟨hS, fun y => ?_⟩
      by_cases hy : y = x
      · subst hy
        obtain ⟨rest, k, hk⟩ := hp y
        cases hx.symm.trans hk
        exact ⟨next ((S.hashes traceId.toHex).get key), k + 1, by simp [hS, List.replicate_succ']⟩
      · simpa [Function.update_noteq hy] using hp y
    | [f], ⟨cmds, k, hf, hS, hp⟩, _ =>
      have hxf : x ≠ f := by rintro rfl; simp [hf] at hx
      refine ⟨cmds, k, by simpa [Function.update_noteq hxf.symm] using hf, hS, fun y hy => ?_⟩
      by_cases hyx : y = x
      · subst hyx
        obtain ⟨rest, k', m, hk⟩ := hp y hy
        cases hx.symm.trans hk
        exact ⟨next (((S.exec cmds).hashes traceId.toHex).get key), k', m + 1,
          by simp [hS, List.replicate_succ']⟩
      · simpa [Function.update_noteq hyx] using hp y hy
    | _ :: _ :: _, _, hlt => simp only [List.length_cons] at hlt; omega
  | @commit x cmds' _ hx =>
    have hlt := hi.order_lt hx
    unfold PairInv at hi ⊢
    match ho : s.order, hi, hlt with
    | [], ⟨hS, hp⟩, _ =>
      obtain ⟨rest, k, hk⟩ := hp x
      cases hx.symm.trans hk
      refine ⟨cmds', k, by simp, by rw [hS], fun y hy => ?_⟩
      obtain ⟨rest', k', hk'⟩ := hp y
      exact ⟨rest', k', 0, by simpa [Function.update_noteq hy] using hk'⟩
    | [f], ⟨cmds, k, hf, hS, hp⟩, _ =>
      have hxf : x ≠ f := by rintro rfl; simp [hf] at hx
      obtain ⟨rest, k', m, hk⟩ := hp x hxf
      cases hx.symm.trans hk
      exact ⟨hxf.symm, cmds, k, by simpa [Function.update_noteq hxf.symm] using hf, cmds', k', m, by simp,
        by rw [hS]⟩
    | _ :: _ :: _, _, hlt => simp only [List.length_cons] at hlt; omega

theorem PairReachable.inv {S : Redis V} {s : PairState V}
    (h : PairReachable ext codec traceId trees fuel S s) : PairInv S s := by
  induction h with
  | init => exact ⟨rfl, fun _ => ⟨_, 0, rfl⟩⟩
  | step _ hs ih => exact hs.inv ih

/-- Once both runs have committed: every `HGET` of the earlier committer `f`
read `S`; the later one's first `k` read `S` and the rest read the state after
`f`'s `EXEC`, and the final state is that state followed by the later run's
commands on those reads, the serial one when `k` is 0. -/
theorem overlapping_inserters_final_state {S : Redis V} {s : PairState V}
    (h : PairReachable ext codec traceId trees fuel S s)
    (done : ∀ x, ∃ cmds seen, s.phase x = .committed cmds seen) :
    ∃ f g k m, f ≠ g ∧ s.order = [f, g] ∧ (∀ st ∈ (s.phase f).seen, st = S) ∧
      (s.phase g).seen = .replicate k S ++ .replicate m (afterRun ext codec traceId trees fuel S f) ∧
      s.store = (afterRun ext codec traceId trees fuel S f).exec (commandsOn ext codec traceId trees fuel g
        fun i => if i < k then S else afterRun ext codec traceId trees fuel S f) ∧
      (k = 0 → s.store = afterRun ext codec traceId trees fuel (afterRun ext codec traceId trees fuel S f) g) := by
  have hi := h.inv
  unfold PairInv at hi
  match ho : s.order, hi with
  | [], ⟨_, hp⟩ =>
    obtain ⟨_, _, hc⟩ := done .a
    obtain ⟨_, _, hr⟩ := hp .a
    cases hc.symm.trans hr
  | [f], ⟨_, _, _, _, hp⟩ =>
    obtain ⟨g, hg⟩ : ∃ g, g ≠ f := by cases f; exacts [⟨.b, nofun⟩, ⟨.a, nofun⟩]
    obtain ⟨_, _, hc⟩ := done g
    obtain ⟨_, _, _, hr⟩ := hp g hg
    cases hc.symm.trans hr
  | [f, g], ⟨hfg, cmdsf, kf, hf, cmdsg, k, m, hg, hS⟩ =>
    have ef : afterRun ext codec traceId trees fuel S f = S.exec cmdsf := by
      rw [afterRun, commandsOn_of_follows (hf ▸ h.follows f) fun i st h' => by
        simp_all [Phase.seen, List.getElem?_replicate]]
    have eg := commandsOn_of_follows (hg ▸ h.follows g) fun i st h' => reads_of_replicate h'
    refine ⟨f, g, k, m, hfg, rfl, by simp [hf, Phase.seen], by simp [hg, Phase.seen, ef], ?_, ?_⟩
    · rw [ef, hS, eg]
    · rintro rfl
      rw [hS, afterRun, ef, ← eg]
      simp
  | _ :: _ :: _ :: _, hi => exact hi.elim

end Pair

inductive PairAction
  | hget (x : Side)
  | commit (x : Side)

section Run

variable {V : Type} (traceId : Bits256)

def PairAction.run (s : PairState V) : PairAction → Option (PairState V)
  | .hget x =>
      match s.phase x with
      | .running (.hget key next) seen => some {s with phase := (Function.update s.phase x
          (.running (next ((s.store.hashes traceId.toHex).get key)) (seen ++ [s.store])))}
      | _ => none
  | .commit x =>
      match s.phase x with
      | .running (.pure cmds) seen =>
          some ⟨s.store.exec cmds, Function.update s.phase x (.committed cmds seen), s.order ++ [x]⟩
      | _ => none

def PairState.runActions : PairState V → List PairAction → Option (PairState V)
  | s, [] => some s
  | s, a :: as => (a.run traceId s).bind fun s' => s'.runActions as

variable {traceId}

theorem PairAction.run_step {s s' : PairState V} {a : PairAction}
    (h : a.run traceId s = some s') : PairStep traceId s s' := by
  cases a <;> simp only [PairAction.run] at h <;> split at h <;> cases h
  exacts [.hget _ ‹_›, .commit _ ‹_›]

theorem PairReachable.runActions {ext : InsertExt} {codec : Codec V} {trees : Side → TraceTree}
    {fuel : Nat} {S : Redis V} {s s' : PairState V} {as : List PairAction}
    (hs : PairReachable ext codec traceId trees fuel S s) (h : s.runActions traceId as = some s') :
    PairReachable ext codec traceId trees fuel S s' := by
  induction as generalizing s with
  | nil => cases h; exact hs
  | cons a as ih =>
    simp only [PairState.runActions, Option.bind_eq_some] at h
    obtain ⟨s₁, h₁, h₂⟩ := h
    exact ih (hs.step (PairAction.run_step h₁)) h₂

end Run

inductive StoredValue
  | node (n : StoredNode)
  | interfaces (ifs : List String)
  deriving DecidableEq

def StoredValue.codec : Codec StoredValue where
  packNode := .node
  packInterfaces := .interfaces
  unpackNode
    | .node n => .ok n
    | .interfaces _ => .error "std::bad_cast"

def sampleMsg (n : UInt8) : Bits256 := Bits256.ofByte (60 + n)
def sampleAccount (n : UInt8) : StdAddress := ⟨0, Bits256.ofByte (70 + n)⟩

def sampleTx (h acc : UInt8) (lt : Nat) (i : UInt8) (os : List UInt8) : TxRecord :=
  ⟨Bits256.ofByte h, sampleAccount acc, lt, some (sampleMsg i), os.map sampleMsg⟩

/-- The root sends message 1; run `a` emulates 1 → 2, run `b` emulates 1 → 3. -/
def sampleTxs : List TxRecord :=
  [sampleTx 80 0 10 0 [1], sampleTx 81 1 11 1 [2], sampleTx 82 2 12 2 [],
   sampleTx 83 1 11 1 [3], sampleTx 84 2 12 3 []]

def sampleInsertExt : InsertExt where
  parseTx c _ :=
    match sampleTxs.find? (·.hash = c.hash) with
    | some tx => .ok tx
    | none => .error ⟨.plain, "Failed to unpack Transaction"⟩

def sampleTrees : Side → TraceTree
  | .a => .mk ⟨Bits256.ofByte 80⟩ 0 false []
      [.mk ⟨Bits256.ofByte 81⟩ 0 true [] [.mk ⟨Bits256.ofByte 82⟩ 0 true [] []]]
  | .b => .mk ⟨Bits256.ofByte 80⟩ 0 false []
      [.mk ⟨Bits256.ofByte 83⟩ 0 true [] [.mk ⟨Bits256.ofByte 84⟩ 0 true [] []]]

def sampleTraceId : Bits256 := Bits256.ofByte 50

def sampleFuel : Nat := 8

def pairStart : PairState StoredValue :=
  ⟨Redis.empty, fun x => .running
    (Stepwise.startUp sampleInsertExt StoredValue.codec sampleFuel sampleTraceId (sampleTrees x)) [], []⟩

def sampleAfterRun : Redis StoredValue → Side → Redis StoredValue :=
  afterRun sampleInsertExt StoredValue.codec sampleTraceId sampleTrees sampleFuel

/-- Both runs make their one `HGET` on the empty state, then `a` commits, then `b`. -/
def overlappedActions : List PairAction := [.hget .a, .hget .b, .commit .a, .commit .b]

def overlappedRun : PairState StoredValue :=
  (pairStart.runActions sampleTraceId overlappedActions).getD pairStart

theorem overlappedRun_reachable :
    PairReachable sampleInsertExt StoredValue.codec sampleTraceId sampleTrees sampleFuel Redis.empty
      overlappedRun := by
  obtain ⟨s, hs⟩ := Option.isSome_iff_exists.1
    (show (pairStart.runActions sampleTraceId overlappedActions).isSome = true by decide)
  have e : overlappedRun = s := by simp [overlappedRun, hs]
  exact e ▸ PairReachable.runActions .init hs

def sampleField (r : Redis StoredValue) (m : UInt8) : Option StoredValue :=
  (r.hashes sampleTraceId.toHex).get (sampleMsg m).toHex

/-- The overlapped run keeps message 2's node, which the serial run `a` then
`b` deletes, and message 3's, which `b` then `a` deletes. -/
theorem overlapping_inserters_not_serial :
    PairReachable sampleInsertExt StoredValue.codec sampleTraceId sampleTrees sampleFuel Redis.empty
        overlappedRun ∧
      (∀ x, ∃ cmds seen, overlappedRun.phase x = .committed cmds seen) ∧
      sampleField overlappedRun.store 2 ≠ sampleField (sampleAfterRun (sampleAfterRun Redis.empty .a) .b) 2 ∧
      sampleField overlappedRun.store 3 ≠ sampleField (sampleAfterRun (sampleAfterRun Redis.empty .b) .a) 3 :=
  ⟨overlappedRun_reachable, fun x => by cases x <;> exact ⟨_, _, rfl⟩, by decide, by decide⟩

theorem overlappedRun_final_state :
    PairReachable sampleInsertExt StoredValue.codec sampleTraceId sampleTrees sampleFuel Redis.empty
        overlappedRun ∧
      (∀ x, ∃ cmds seen, overlappedRun.phase x = .committed cmds seen) ∧
      ∃ f g k m, f ≠ g ∧ overlappedRun.order = [f, g] ∧
        (∀ st ∈ (overlappedRun.phase f).seen, st = Redis.empty) ∧
        (overlappedRun.phase g).seen = .replicate k Redis.empty ++ .replicate m (sampleAfterRun Redis.empty f) ∧
        overlappedRun.store = (sampleAfterRun Redis.empty f).exec (commandsOn sampleInsertExt
          StoredValue.codec sampleTraceId sampleTrees sampleFuel g
            fun i => if i < k then Redis.empty else sampleAfterRun Redis.empty f) ∧
        (k = 0 → overlappedRun.store = sampleAfterRun (sampleAfterRun Redis.empty f) g) :=
  have done : ∀ x, ∃ cmds seen, overlappedRun.phase x = .committed cmds seen :=
    fun x => by cases x <;> exact ⟨_, _, rfl⟩
  ⟨overlappedRun_reachable, done, overlapping_inserters_final_state overlappedRun_reachable done⟩

end TaskResultInserter

end TonIndex
