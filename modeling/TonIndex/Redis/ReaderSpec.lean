import TonIndex.Redis.Effect

set_option autoImplicit false

namespace TonIndex

mutual

def TraceNodeShort.txHashes : TraceNodeShort → List Bits256
  | .mk h _ children => h :: TraceNodeShort.forestHashes children

def TraceNodeShort.forestHashes : List TraceNodeShort → List Bits256
  | [] => []
  | t :: ts => t.txHashes ++ TraceNodeShort.forestHashes ts

end

def assignTxs (m : StdMap Bits256 TxRecord) (txs : List TxRecord) : StdMap Bits256 TxRecord :=
  txs.foldl (fun m tx => m.assign tx.hash tx) m

theorem assignTxs_append (m : StdMap Bits256 TxRecord) (txs txs' : List TxRecord) :
    assignTxs m (txs ++ txs') = assignTxs (assignTxs m txs) txs' :=
  List.foldl_append ..

theorem assignTxs_some {txs : List TxRecord} :
    ∀ {m : StdMap Bits256 TxRecord} {h : Bits256} {tx : TxRecord},
      assignTxs m txs h = some tx → m h = some tx ∨ (tx ∈ txs ∧ tx.hash = h) := by
  induction txs with
  | nil => exact .inl
  | cons tx' txs ih =>
    intro m h tx hs
    rcases ih hs with hm | ⟨hm, rfl⟩
    · by_cases e : h = tx'.hash
      · subst e
        obtain rfl : tx' = tx := by simpa using hm
        exact .inr ⟨List.mem_cons_self _ _, rfl⟩
      · exact .inl (by simpa [e] using hm)
    · exact .inr ⟨List.mem_cons_of_mem _ hm, rfl⟩

theorem isSome_assignTxs {txs : List TxRecord} :
    ∀ {m : StdMap Bits256 TxRecord} {h : Bits256},
      (assignTxs m txs h).isSome ↔ (m h).isSome ∨ h ∈ txs.map (·.hash) := by
  induction txs with
  | nil => simp [assignTxs]
  | cons tx txs ih =>
    intro m h
    rw [assignTxs, List.foldl_cons, ← assignTxs, ih]
    by_cases e : h = tx.hash <;> simp [e]

theorem run_tryCatch_prefix {α : Type} (x : ExceptT String Option α) (p : String) :
    (x.tryCatch fun e => throw (p ++ e)).run = x.run.map fun r => r.mapError (p ++ ·) := by
  show (x.run >>= _) = _
  rcases x.run with _ | _ | a <;> rfl

theorem foldlM_run_error {α β ε : Type} {f : β → α → ExceptT ε Option β} {e : ε} :
    ∀ {l : List α} {b : β}, (l.foldlM f b).run = some (.error e) → ∃ a ∈ l, ∃ b', (f b' a).run = some (.error e)
  | [], b, h => by cases h
  | a :: l, b, h => by
    rw [List.foldlM_cons, ExceptT.run_bind] at h
    rcases hf : (f b a).run with _ | _ | b₁ <;> simp only [hf] at h
    · cases h
    · cases h; exact ⟨a, List.mem_cons_self _ _, b, hf⟩
    · obtain ⟨a', ha', b', h'⟩ := foldlM_run_error h
      exact ⟨a', List.mem_cons_of_mem _ ha', b', h'⟩

def childPrefix : Nat → String
  | 0 => ""
  | d + 1 => "failed to convert child node: " ++ childPrefix d

section Spec

variable (codec : Codec String) (hset : RHash String)

def convertChild (n : Nat) (acc : List TraceNodeShort × StdMap Bits256 TxRecord) (h : Bits256) :
    ExceptT String Option (List TraceNodeShort × StdMap Bits256 TxRecord) :=
  match hset.get (childKey h) with
  | none => pure acc
  | some childBytes => do
    let r ← (convertNode codec hset n childBytes acc.2).tryCatch
      fun e => throw ("failed to convert child node: " ++ e)
    pure (acc.1 ++ [r.1], r.2)

variable {codec hset}

theorem convertNode_run_error {n : Nat} {v e : String} (m : StdMap Bits256 TxRecord)
    (hn : codec.unpackNode v = .error e) :
    (convertNode codec hset (n + 1) v m).run = some (.error ("failed to unmarshal node: " ++ e)) := by
  simp [convertNode, hn]

theorem convertNode_run_ok {n : Nat} {v : String} {node : StoredNode} (m : StdMap Bits256 TxRecord)
    (hn : codec.unpackNode v = .ok node) :
    (convertNode codec hset (n + 1) v m).run =
      (node.transaction.outMsgs.foldlM (convertChild codec hset n)
          ([], m.assign node.transaction.hash node.transaction)).run.map
        (Except.map fun p => (.mk node.transaction.hash node.transaction.inMsg p.1, p.2)) := by
  simp only [convertNode, hn]
  show ((List.foldlM (convertChild codec hset n) _ _) >>= _).run = _
  rw [ExceptT.run_bind]
  rcases (List.foldlM (convertChild codec hset n) _ _).run with _ | _ | p <;> rfl

theorem convertChild_run (n : Nat) (acc : List TraceNodeShort × StdMap Bits256 TxRecord) (h : Bits256) :
    (convertChild codec hset n acc h).run =
      match hset.get (childKey h) with
      | none => some (.ok acc)
      | some cb => (convertNode codec hset n cb acc.2).run.map fun
        | .error e => .error ("failed to convert child node: " ++ e)
        | .ok r => .ok (acc.1 ++ [r.1], r.2) := by
  unfold convertChild
  split
  · rfl
  · rw [ExceptT.run_bind, run_tryCatch_prefix]
    rcases (convertNode codec hset n _ acc.2).run with _ | _ | r <;> rfl

variable (codec hset)

/-- A child link the reader follows: the node under `k` unpacks, and one of
its out-messages has the base64 key `k'`, a field of the hash. -/
def ChildLink (k k' : String) : Prop :=
  ∃ v node, hset.get k = some v ∧ codec.unpackNode v = .ok node ∧
    ∃ m ∈ node.transaction.outMsgs, k' = childKey m ∧ (hset.get k').isSome

inductive Below : Nat → String → String → Prop
  | refl (k : String) : Below 0 k k
  | child {d : Nat} {k k' k'' : String} : ChildLink codec hset k k' → Below d k' k'' → Below (d + 1) k k''

def NodeTx (k : String) (tx : TxRecord) : Prop :=
  ∃ v node, hset.get k = some v ∧ codec.unpackNode v = .ok node ∧ node.transaction = tx

def ChildRoot (outMsgs : List Bits256) (k : String) : Prop :=
  ∃ m ∈ outMsgs, k = childKey m ∧ (hset.get k).isSome

/-- What the reader gathers from the fields `R`: the tree's hashes are those of `txs`,
the transactions of the nodes reachable from `R`, every one of which unpacks. -/
structure Gathers (R : String → Prop) (hashes : List Bits256) (txs : List TxRecord) : Prop where
  hashes_eq : hashes = txs.map (·.hash)
  sound : ∀ tx ∈ txs, ∃ k d k', R k ∧ Below codec hset d k k' ∧ NodeTx codec hset k' tx
  complete : ∀ k d k', R k → Below codec hset d k k' → ∃ tx ∈ txs, NodeTx codec hset k' tx

variable {codec hset}

theorem childRoot_cons {m : Bits256} {l : List Bits256} {k : String} :
    ChildRoot hset (m :: l) k ↔ (k = childKey m ∧ (hset.get k).isSome) ∨ ChildRoot hset l k := by
  simp [ChildRoot]

theorem childLink_iff {k k' v : String} {node : StoredNode} (hk : hset.get k = some v)
    (hn : codec.unpackNode v = .ok node) :
    ChildLink codec hset k k' ↔ ChildRoot hset node.transaction.outMsgs k' := by
  simp [ChildLink, ChildRoot, hk, hn]

section Gathers

variable {R R' : String → Prop} {hs hs' : List Bits256} {txs txs' : List TxRecord}

theorem Gathers.nil : Gathers codec hset (ChildRoot hset []) [] [] :=
  ⟨rfl, by simp, by simp [ChildRoot]⟩

theorem Gathers.congr (h : Gathers codec hset R hs txs) (hR : ∀ k, R k ↔ R' k) :
    Gathers codec hset R' hs txs :=
  ⟨h.hashes_eq, fun tx htx => by simpa only [← hR] using h.sound tx htx,
    fun k d k' hk hb => h.complete k d k' ((hR k).2 hk) hb⟩

theorem Gathers.append (h : Gathers codec hset R hs txs) (h' : Gathers codec hset R' hs' txs') :
    Gathers codec hset (fun k => R k ∨ R' k) (hs ++ hs') (txs ++ txs') where
  hashes_eq := by simp [h.hashes_eq, h'.hashes_eq]
  sound tx htx := by
    rcases List.mem_append.1 htx with htx | htx
    · obtain ⟨k, d, k', hk, hb, ht⟩ := h.sound tx htx
      exact ⟨k, d, k', .inl hk, hb, ht⟩
    · obtain ⟨k, d, k', hk, hb, ht⟩ := h'.sound tx htx
      exact ⟨k, d, k', .inr hk, hb, ht⟩
  complete k d k' hk hb := by
    rcases hk with hk | hk
    · obtain ⟨tx, htx, ht⟩ := h.complete k d k' hk hb
      exact ⟨tx, List.mem_append_left _ htx, ht⟩
    · obtain ⟨tx, htx, ht⟩ := h'.complete k d k' hk hb
      exact ⟨tx, List.mem_append_right _ htx, ht⟩

theorem Gathers.node {k v : String} {node : StoredNode} (hk : hset.get k = some v)
    (hn : codec.unpackNode v = .ok node) (h : Gathers codec hset (ChildRoot hset node.transaction.outMsgs) hs txs) :
    Gathers codec hset (· = k) (node.transaction.hash :: hs) (node.transaction :: txs) where
  hashes_eq := by simp [h.hashes_eq]
  sound tx htx := by
    rcases List.mem_cons.1 htx with rfl | htx
    · exact ⟨k, 0, k, rfl, .refl k, v, node, hk, hn, rfl⟩
    · obtain ⟨k₁, d, k', hk₁, hb, ht⟩ := h.sound tx htx
      exact ⟨k, d + 1, k', rfl, .child ((childLink_iff hk hn).2 hk₁) hb, ht⟩
  complete k₀ d k' hk₀ hb := by
    subst hk₀
    cases hb with
    | refl => exact ⟨node.transaction, List.mem_cons_self _ _, v, node, hk, hn, rfl⟩
    | child hl hb =>
      obtain ⟨tx, htx, ht⟩ := h.complete _ _ k' ((childLink_iff hk hn).1 hl) hb
      exact ⟨tx, List.mem_cons_of_mem _ htx, ht⟩

end Gathers

theorem foldlM_convertChild_ok {n : Nat}
    (ih : ∀ {k v : String} {m m' : StdMap Bits256 TxRecord} {t : TraceNodeShort}, hset.get k = some v →
      (convertNode codec hset n v m).run = some (.ok (t, m')) →
        ∃ txs, m' = assignTxs m txs ∧ Gathers codec hset (· = k) t.txHashes txs)
    {l : List Bits256} {acc res : List TraceNodeShort × StdMap Bits256 TxRecord}
    (h : (l.foldlM (convertChild codec hset n) acc).run = some (.ok res)) :
    ∃ txs new, res.2 = assignTxs acc.2 txs ∧ res.1 = acc.1 ++ new ∧
      Gathers codec hset (ChildRoot hset l) (TraceNodeShort.forestHashes new) txs := by
  refine foldlM_ok_induction (fun l acc res => ∃ txs new, res.2 = assignTxs acc.2 txs ∧ res.1 = acc.1 ++ new ∧
      Gathers codec hset (ChildRoot hset l) (TraceNodeShort.forestHashes new) txs)
    (fun _ => ⟨[], [], rfl, by simp, Gathers.nil⟩) ?_ h
  rintro a l acc acc₁ res hstep ⟨txs, new, h₂, h₁, hg⟩
  rw [convertChild_run] at hstep
  rcases hc : hset.get (childKey a) with _ | cb
  · simp only [hc, Option.some.injEq, Except.ok.injEq] at hstep
    subst hstep
    refine ⟨txs, new, h₂, h₁, hg.congr fun k => ?_⟩
    rw [childRoot_cons]
    exact ⟨.inr, fun h => h.elim (fun ⟨e, hs⟩ => by simp [e, hc] at hs) id⟩
  · rcases hr : (convertNode codec hset n cb acc.2).run with _ | _ | ⟨r, m₁⟩ <;>
      simp only [hc, hr, Option.map_some', Option.map_none', Option.some.injEq, reduceCtorEq,
        Except.ok.injEq] at hstep
    subst hstep
    obtain ⟨txs₁, hm₁, hg₁⟩ := ih hc hr
    refine ⟨txs₁ ++ txs, r :: new, by rw [h₂, assignTxs_append, ← hm₁], by simp [h₁], ?_⟩
    refine (hg₁.append hg).congr fun k => ?_
    rw [childRoot_cons]
    exact or_congr_left ⟨fun e => ⟨e, by simp [e, hc]⟩, And.left⟩

theorem convertNode_ok : ∀ {n : Nat} {k v : String} {m m' : StdMap Bits256 TxRecord} {t : TraceNodeShort},
    hset.get k = some v → (convertNode codec hset n v m).run = some (.ok (t, m')) →
      ∃ txs, m' = assignTxs m txs ∧ Gathers codec hset (· = k) t.txHashes txs
  | 0, _, _, _, _, _, _, h => by cases h
  | n + 1, k, v, m, m', t, hk, h => by
    rcases hn : codec.unpackNode v with e | node
    · rw [convertNode_run_error m hn] at h; cases h
    rw [convertNode_run_ok m hn] at h
    rcases hf : (node.transaction.outMsgs.foldlM (convertChild codec hset n)
        ([], m.assign node.transaction.hash node.transaction)).run with _ | _ | ⟨cs, m₁⟩ <;>
      simp only [hf, Option.map_some', Option.map_none', Option.some.injEq, reduceCtorEq, Except.map,
        Except.ok.injEq, Prod.mk.injEq] at h
    obtain ⟨rfl, rfl⟩ := h
    obtain ⟨txs, new, hm, hc, hg⟩ := foldlM_convertChild_ok (fun hk h => convertNode_ok hk h) hf
    refine ⟨node.transaction :: txs, hm, ?_⟩
    simp only [List.nil_append] at hc
    subst hc
    exact Gathers.node hk hn hg

theorem convertNode_error : ∀ {n : Nat} {k v : String} {m : StdMap Bits256 TxRecord} {e : String},
    hset.get k = some v → (convertNode codec hset n v m).run = some (.error e) →
      ∃ d k' v' err, Below codec hset d k k' ∧ hset.get k' = some v' ∧ codec.unpackNode v' = .error err ∧
        e = childPrefix d ++ "failed to unmarshal node: " ++ err
  | 0, _, _, _, _, _, h => by cases h
  | n + 1, k, v, m, e, hk, h => by
    rcases hn : codec.unpackNode v with err | node
    · rw [convertNode_run_error m hn] at h
      cases h
      exact ⟨0, k, v, err, .refl k, hk, hn, by simp [childPrefix]⟩
    rw [convertNode_run_ok m hn] at h
    rcases hf : (node.transaction.outMsgs.foldlM (convertChild codec hset n)
        ([], m.assign node.transaction.hash node.transaction)).run with _ | _ | p <;>
      simp only [hf, Option.map_some', Option.map_none', Option.some.injEq, reduceCtorEq, Except.map,
        Except.error.injEq] at h
    subst h
    obtain ⟨a, ha, acc, hstep⟩ := foldlM_run_error hf
    rw [convertChild_run] at hstep
    rcases hc : hset.get (childKey a) with _ | cb
    · simp [hc] at hstep
    rcases hr : (convertNode codec hset n cb acc.2).run with _ | _ | r <;>
      simp only [hc, hr, Option.map_some', Option.map_none', Option.some.injEq, reduceCtorEq,
        Except.error.injEq] at hstep
    obtain ⟨d, k', v', err, hb, hk', hn', rfl⟩ := convertNode_error hc hr
    refine ⟨d + 1, k', v', err, .child ((childLink_iff hk hn).2 ⟨a, ha, rfl, by simp [hc]⟩) hb, hk', hn', ?_⟩
    simp only [← hstep, childPrefix, String.append_assoc]

theorem convertNode_chain : ∀ {n : Nat} {k v : String} {m : StdMap Bits256 TxRecord},
    hset.get k = some v → (convertNode codec hset n v m).run = none →
      ∃ l, List.Chain (ChildLink codec hset) k l ∧ n ≤ l.length
  | 0, k, _, _, _, _ => ⟨[], .nil, le_refl _⟩
  | n + 1, k, v, m, hk, h => by
    rcases hn : codec.unpackNode v with err | node
    · rw [convertNode_run_error m hn] at h; cases h
    rw [convertNode_run_ok m hn, Option.map_eq_none'] at h
    obtain ⟨a, ha, acc, hstep⟩ := foldlM_run_none h
    rw [convertChild_run] at hstep
    rcases hc : hset.get (childKey a) with _ | cb
    · simp [hc] at hstep
    rw [hc, Option.map_eq_none'] at hstep
    obtain ⟨l, hl, hlen⟩ := convertNode_chain hc hstep
    exact ⟨childKey a :: l, .cons ((childLink_iff hk hn).2 ⟨a, ha, rfl, by simp [hc]⟩) hl, by simp [hlen]⟩

variable (codec hset) in
def ChildAcyclic : Prop := ∀ k, ¬ Relation.TransGen (ChildLink codec hset) k k

theorem childChain_present {k : String} :
    ∀ {l : List String}, List.Chain (ChildLink codec hset) k l → ∀ x ∈ l, (hset.get x).isSome
  | [], _, x, hx => by simp at hx
  | _ :: _, .cons ⟨_, _, _, _, _, _, _, hs⟩ hl, x, hx => by
    rcases List.mem_cons.1 hx with rfl | hx
    exacts [hs, childChain_present hl x hx]

theorem childChain_length_lt (hac : ChildAcyclic codec hset) {k : String} {l : List String}
    (hk : (hset.get k).isSome) (h : List.Chain (ChildLink codec hset) k l) : l.length < hset.fields.length := by
  have hp : (k :: l).Pairwise (Relation.TransGen (ChildLink codec hset)) :=
    List.chain_iff_pairwise.1 (h.imp fun _ _ => .single)
  have hnd : (k :: l).Nodup := hp.imp fun {a b} hab (he : a = b) => by subst he; exact hac a hab
  have hsub : k :: l ⊆ hset.fields := fun x hx => (hset.mem_fields x).2 <| by
    rcases List.mem_cons.1 hx with rfl | hx
    exacts [hk, childChain_present h x hx]
  simpa using (List.subperm_of_subset hnd hsub).length_le

theorem get_of_goLookup_ne {k : String} (h : goLookup hset k ≠ "") : hset.get k = some (goLookup hset k) := by
  cases hk : hset.get k <;> simp_all [goLookup]

theorem convertHset_run :
    (convertHsetToTraceNodeShort codec hset).run =
      if goLookup hset (goLookup hset "root_node") = "" then some (.error "root node not found")
      else (convertNode codec hset (hset.fields.length + 1) (goLookup hset (goLookup hset "root_node"))
        StdMap.empty).run.map fun r => r.mapError ("failed to convert root node: " ++ ·) := by
  unfold convertHsetToTraceNodeShort
  dsimp only
  split
  · rfl
  · exact run_tryCatch_prefix _ _

theorem convertHset_ok_gathers {t : TraceNodeShort} {txMap : StdMap Bits256 TxRecord}
    (h : (convertHsetToTraceNodeShort codec hset).run = some (.ok (t, txMap))) :
    ∃ txs, txMap = assignTxs StdMap.empty txs ∧
      Gathers codec hset (· = goLookup hset "root_node") t.txHashes txs := by
  by_cases hr : goLookup hset (goLookup hset "root_node") = ""
  · rw [convertHset_run, if_pos hr] at h; cases h
  rw [convertHset_run, if_neg hr] at h
  rcases hc : (convertNode codec hset (hset.fields.length + 1) _ StdMap.empty).run with _ | _ | p <;>
    rw [hc] at h <;> simp only [Option.map_some', Option.map_none', Option.some.injEq, reduceCtorEq,
      Except.mapError, Except.ok.injEq] at h
  subst h
  exact convertNode_ok (get_of_goLookup_ne hr) hc

theorem convertHset_error_root {e : String}
    (h : (convertHsetToTraceNodeShort codec hset).run = some (.error e)) :
    (goLookup hset (goLookup hset "root_node") = "" ∧ e = "root node not found") ∨
      ∃ e', hset.get (goLookup hset "root_node") = some (goLookup hset (goLookup hset "root_node")) ∧
        (convertNode codec hset (hset.fields.length + 1) (goLookup hset (goLookup hset "root_node"))
          StdMap.empty).run = some (.error e') ∧ e = "failed to convert root node: " ++ e' := by
  by_cases hr : goLookup hset (goLookup hset "root_node") = ""
  · rw [convertHset_run, if_pos hr] at h; cases h; exact .inl ⟨hr, rfl⟩
  rw [convertHset_run, if_neg hr] at h
  rcases hc : (convertNode codec hset (hset.fields.length + 1) _ StdMap.empty).run with _ | _ | p <;>
    rw [hc] at h <;> simp only [Option.map_some', Option.map_none', Option.some.injEq, reduceCtorEq,
      Except.mapError, Except.error.injEq] at h
  exact .inr ⟨_, get_of_goLookup_ne hr, rfl, h.symm⟩

/-- On success the reader's tree and transaction map list the same
transactions: those of the nodes reachable from the root, every one of which
unpacks, each in the map under its own hash. -/
theorem convertHset_ok {t : TraceNodeShort} {txMap : StdMap Bits256 TxRecord}
    (h : (convertHsetToTraceNodeShort codec hset).run = some (.ok (t, txMap))) :
    (∀ d k, Below codec hset d (goLookup hset "root_node") k →
      ∃ tx, NodeTx codec hset k tx ∧ (txMap tx.hash).isSome) ∧
    (∀ hash tx, txMap hash = some tx →
      tx.hash = hash ∧ ∃ d k, Below codec hset d (goLookup hset "root_node") k ∧ NodeTx codec hset k tx) ∧
    ∀ hash, hash ∈ t.txHashes ↔ (txMap hash).isSome := by
  obtain ⟨txs, rfl, hg⟩ := convertHset_ok_gathers h
  refine ⟨fun d k hb => ?_, fun hash tx hs => ?_, fun hash => ?_⟩
  · obtain ⟨tx, htx, ht⟩ := hg.complete _ d k rfl hb
    exact ⟨tx, ht, isSome_assignTxs.2 (.inr (List.mem_map_of_mem _ htx))⟩
  · rcases assignTxs_some hs with h0 | ⟨htx, he⟩
    · cases h0
    · obtain ⟨_, d, k, rfl, hb, ht⟩ := hg.sound tx htx
      exact ⟨he, d, k, hb, ht⟩
  · simp [hg.hashes_eq, isSome_assignTxs]

/-- A failure of the reader is a missing root, or names a node that does not
unpack, `d` child levels below the root, behind one prefix per level. -/
theorem convertHset_error {e : String} (h : (convertHsetToTraceNodeShort codec hset).run = some (.error e)) :
    (goLookup hset (goLookup hset "root_node") = "" ∧ e = "root node not found") ∨
      ∃ d k v err, Below codec hset d (goLookup hset "root_node") k ∧ hset.get k = some v ∧
        codec.unpackNode v = .error err ∧
        e = "failed to convert root node: " ++ childPrefix d ++ "failed to unmarshal node: " ++ err := by
  rcases convertHset_error_root h with h0 | ⟨e', hk, hc, rfl⟩
  · exact .inl h0
  obtain ⟨d, k, v, err, hb, hk, hn, rfl⟩ := convertNode_error hk hc
  exact .inr ⟨d, k, v, err, hb, hk, hn, by simp only [String.append_assoc]⟩

/-- On a hash whose child links have no cycle the reader returns within its
fuel, and it fails exactly when the root is missing or a node reachable from
it does not unpack. -/
theorem convertHset_error_iff (hac : ChildAcyclic codec hset) :
    (convertHsetToTraceNodeShort codec hset).run ≠ none ∧
    ((∃ e, (convertHsetToTraceNodeShort codec hset).run = some (.error e)) ↔
      goLookup hset (goLookup hset "root_node") = "" ∨
        ∃ d k v err, Below codec hset d (goLookup hset "root_node") k ∧ hset.get k = some v ∧
          codec.unpackNode v = .error err) := by
  have hret : (convertHsetToTraceNodeShort codec hset).run ≠ none := by
    rw [convertHset_run]
    split
    · simp
    · rw [Ne, Option.map_eq_none']
      intro hn
      obtain ⟨l, hl, hlen⟩ := convertNode_chain (get_of_goLookup_ne ‹_›) hn
      have := childChain_length_lt hac (by simp [get_of_goLookup_ne ‹_›]) hl
      omega
  refine ⟨hret, ⟨fun ⟨e, he⟩ => ?_, fun hf => ?_⟩⟩
  · rcases convertHset_error_root he with ⟨h0, -⟩ | ⟨e', hk, hc, -⟩
    · exact .inl h0
    obtain ⟨d, k, v, err, hb, hk, hn, -⟩ := convertNode_error hk hc
    exact .inr ⟨d, k, v, err, hb, hk, hn⟩
  · rcases hr : (convertHsetToTraceNodeShort codec hset).run with _ | _ | ⟨t, txMap⟩
    · exact absurd hr hret
    · exact ⟨_, rfl⟩
    · exfalso
      obtain ⟨txs, -, hg⟩ := convertHset_ok_gathers hr
      rcases hf with he | ⟨d, k, v, err, hb, hk, hn⟩
      · rw [convertHset_run, if_pos he] at hr; cases hr
      · obtain ⟨tx, -, v', node, hk', hn', -⟩ := hg.complete _ d k rfl hb
        rw [hk] at hk'
        cases hk'
        rw [hn] at hn'
        cases hn'

structure EmulateTraceResponse (S : Type) where
  mcBlockId : String
  trace : TraceNodeShort
  transactions : StdMap Bits256 TxRecord
  accountStates : S

variable (codec hset) in
/-- `TransformToAPIResponse`: the reader's tree and map, the account states
msgpack unpacks from the field `account_states`, and the field `mc_block_id`. -/
def transformToAPIResponse {S : Type} (unpackStates : String → Except String S) :
    ExceptT String Option (EmulateTraceResponse S) := do
  let (shortTrace, txMap) ← convertHsetToTraceNodeShort codec hset
  match unpackStates (goLookup hset "account_states") with
  | .error e => throw ("failed to unmarshal account states: " ++ e)
  | .ok accountStates => pure ⟨goLookup hset "mc_block_id", shortTrace, txMap, accountStates⟩

theorem transformToAPIResponse_ok {S : Type} {unpackStates : String → Except String S}
    {r : EmulateTraceResponse S} :
    (transformToAPIResponse codec hset unpackStates).run = some (.ok r) ↔
      (convertHsetToTraceNodeShort codec hset).run = some (.ok (r.trace, r.transactions)) ∧
        unpackStates (goLookup hset "account_states") = .ok r.accountStates ∧
        r.mcBlockId = goLookup hset "mc_block_id" := by
  unfold transformToAPIResponse
  rw [ExceptT.run_bind]
  rcases hc : (convertHsetToTraceNodeShort codec hset).run with _ | e | ⟨t, m⟩
  · simp
  · simp
  rcases hu : unpackStates (goLookup hset "account_states") with e | st
  · simp [hu]
  · obtain ⟨id, tr, txs, st'⟩ := r
    simp [hu]
    exact ⟨fun ⟨h₁, h₂, h₃, h₄⟩ => ⟨⟨h₂, h₃⟩, h₄, h₁.symm⟩, fun ⟨⟨h₂, h₃⟩, h₄, h₁⟩ => ⟨h₁.symm, h₂, h₃, h₄⟩⟩

end Spec

def sampleLeaf : StoredNode := ⟨⟨Bits256.ofByte 2, ⟨0, Bits256.ofByte 20⟩, 2, some (Bits256.ofByte 1), []⟩, true⟩

def sampleParent : StoredNode := ⟨⟨Bits256.ofByte 3, ⟨0, Bits256.ofByte 20⟩, 1, none, [Bits256.ofByte 1]⟩, true⟩

def sampleCodec : Codec String where
  packNode _ := ""
  packInterfaces _ := ""
  unpackNode v :=
    if v = "parent" then .ok sampleParent else if v = "leaf" then .ok sampleLeaf else .error "msgpack: invalid code"

/-- A trace hash: its root `t` holds the parent, and the parent's child field `child`. -/
def sampleHash (child : String) : RHash String :=
  ((RHash.empty.hset "root_node" "t").hset "t" "parent").hset (childKey (Bits256.ofByte 1)) child

def sampleTree : TraceNodeShort :=
  .mk (Bits256.ofByte 3) none [.mk (Bits256.ofByte 2) (some (Bits256.ofByte 1)) []]

def sampleTxMap : StdMap Bits256 TxRecord :=
  assignTxs StdMap.empty [sampleParent.transaction, sampleLeaf.transaction]

theorem sampleHash_read : (convertHsetToTraceNodeShort sampleCodec (sampleHash "leaf")).run =
    some (.ok (sampleTree, sampleTxMap)) := rfl

theorem sampleHash_read_ok :
    (convertHsetToTraceNodeShort sampleCodec (sampleHash "leaf")).run = some (.ok (sampleTree, sampleTxMap)) ∧
    (∀ d k, Below sampleCodec (sampleHash "leaf") d (goLookup (sampleHash "leaf") "root_node") k →
      ∃ tx, NodeTx sampleCodec (sampleHash "leaf") k tx ∧ (sampleTxMap tx.hash).isSome) ∧
    (∀ hash tx, sampleTxMap hash = some tx → tx.hash = hash ∧
      ∃ d k, Below sampleCodec (sampleHash "leaf") d (goLookup (sampleHash "leaf") "root_node") k ∧
        NodeTx sampleCodec (sampleHash "leaf") k tx) ∧
    ∀ hash, hash ∈ sampleTree.txHashes ↔ (sampleTxMap hash).isSome :=
  ⟨sampleHash_read, convertHset_ok sampleHash_read⟩

theorem sampleHash_read_junk : (convertHsetToTraceNodeShort sampleCodec (sampleHash "junk")).run =
    some (.error "failed to convert root node: failed to convert child node: failed to unmarshal node: msgpack: invalid code") :=
  rfl

theorem sampleHash_junk_error :
    (convertHsetToTraceNodeShort sampleCodec (sampleHash "junk")).run =
      some (.error "failed to convert root node: failed to convert child node: failed to unmarshal node: msgpack: invalid code") ∧
    ((goLookup (sampleHash "junk") (goLookup (sampleHash "junk") "root_node") = "" ∧
        "failed to convert root node: failed to convert child node: failed to unmarshal node: msgpack: invalid code" =
          "root node not found") ∨
      ∃ d k v err, Below sampleCodec (sampleHash "junk") d (goLookup (sampleHash "junk") "root_node") k ∧
        (sampleHash "junk").get k = some v ∧ sampleCodec.unpackNode v = .error err ∧
        "failed to convert root node: failed to convert child node: failed to unmarshal node: msgpack: invalid code" =
          "failed to convert root node: " ++ childPrefix d ++ "failed to unmarshal node: " ++ err) :=
  ⟨sampleHash_read_junk, convertHset_error sampleHash_read_junk⟩

theorem sampleHash_link {child k k' : String}
    (hc : ∀ node, sampleCodec.unpackNode child = .ok node → node.transaction.outMsgs = [])
    (h : ChildLink sampleCodec (sampleHash child) k k') : k = "t" ∧ k' = childKey (Bits256.ofByte 1) := by
  obtain ⟨v, node, hk, hn, m, hm, rfl, -⟩ := h
  simp only [sampleHash, RHash.hset_get, RHash.empty] at hk
  split_ifs at hk with h₁ h₂ h₃ <;> cases hk
  · simp [hc node hn] at hm
  · simp only [sampleCodec, if_pos, Except.ok.injEq] at hn
    subst hn
    simp_all [sampleParent]
  · simp [sampleCodec] at hn

theorem sampleHash_acyclic {child : String}
    (hc : ∀ node, sampleCodec.unpackNode child = .ok node → node.transaction.outMsgs = []) :
    ChildAcyclic sampleCodec (sampleHash child) := by
  intro k h
  obtain ⟨c, hkc, hck⟩ := Relation.TransGen.head'_iff.1 h
  obtain ⟨hk, rfl⟩ := sampleHash_link hc hkc
  have : childKey (Bits256.ofByte 1) = "t" := by
    rcases Relation.ReflTransGen.cases_head_iff.1 hck with e | ⟨d, hcd, -⟩
    exacts [e.trans hk, (sampleHash_link hc hcd).1]
  have hl := congrArg String.length this
  rw [length_childKey] at hl
  exact absurd hl (by decide)

theorem sampleHash_junk_fails :
    ChildAcyclic sampleCodec (sampleHash "junk") ∧
    (convertHsetToTraceNodeShort sampleCodec (sampleHash "junk")).run ≠ none ∧
    ((∃ e, (convertHsetToTraceNodeShort sampleCodec (sampleHash "junk")).run = some (.error e)) ↔
      goLookup (sampleHash "junk") (goLookup (sampleHash "junk") "root_node") = "" ∨
        ∃ d k v err, Below sampleCodec (sampleHash "junk") d (goLookup (sampleHash "junk") "root_node") k ∧
          (sampleHash "junk").get k = some v ∧ sampleCodec.unpackNode v = .error err) :=
  have hac := sampleHash_acyclic fun node h => by simp [sampleCodec] at h
  ⟨hac, convertHset_error_iff hac⟩

end TonIndex
