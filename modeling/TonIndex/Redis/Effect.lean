import TonIndex.Redis.Reader
import TonIndex.Detect.Impl
import Mathlib.Logic.Relation
import Mathlib.Data.List.Chain

set_option autoImplicit false

namespace TonIndex

namespace RedisCmd

variable {V : Type}

def fieldEffect (key f : String) : RedisCmd V → Option (Option V)
  | .hdel k g => if k = key ∧ g = f then some none else none
  | .hset k g v => if k = key ∧ g = f then some (some v) else none
  | _ => none

def memberEffect (key m : String) : RedisCmd V → Option (Option Nat)
  | .zrem k n => if k = key ∧ n = m then some none else none
  | .zadd k n s => if k = key ∧ n = m then some (some s) else none
  | _ => none

end RedisCmd

namespace Redis

variable {V : Type}

theorem apply_hash_get (r : Redis V) (c : RedisCmd V) (key f : String) :
    ((r.apply c).hashes key).get f = (c.fieldEffect key f).getD ((r.hashes key).get f) := by
  cases c with
  | hdel k g => by_cases hk : key = k <;> by_cases hg : f = g <;> simp_all [apply, updHash, RedisCmd.fieldEffect, eq_comm]
  | hset k g v => by_cases hk : key = k <;> by_cases hg : f = g <;> simp_all [apply, updHash, RedisCmd.fieldEffect, eq_comm]
  | zrem | zadd | publish => rfl

theorem apply_zset (r : Redis V) (c : RedisCmd V) (key m : String) :
    (r.apply c).zsets key m = (c.memberEffect key m).getD (r.zsets key m) := by
  cases c with
  | zrem k n => by_cases hk : key = k <;> by_cases hn : m = n <;> simp_all [apply, updZset, RedisCmd.memberEffect, eq_comm]
  | zadd k n s => by_cases hk : key = k <;> by_cases hn : m = n <;> simp_all [apply, updZset, RedisCmd.memberEffect, StdMap.assign, eq_comm]
  | hdel | hset | publish => rfl

theorem apply_hashes_of_ne (r : Redis V) (c : RedisCmd V) {key : String}
    (h : ∀ f, c.fieldEffect key f = none) : (r.apply c).hashes key = r.hashes key := by
  cases c with
  | hdel k g =>
    have : key ≠ k := fun hk => by simpa [RedisCmd.fieldEffect, hk] using h g
    simp [apply, updHash, this]
  | hset k g v =>
    have : key ≠ k := fun hk => by simpa [RedisCmd.fieldEffect, hk] using h g
    simp [apply, updHash, this]
  | zrem | zadd | publish => rfl

theorem exec_hash_get (r : Redis V) (cmds : List (RedisCmd V)) (key f : String) :
    ((r.exec cmds).hashes key).get f =
      (cmds.reverse.findSome? (RedisCmd.fieldEffect key f)).getD ((r.hashes key).get f) := by
  induction cmds generalizing r with
  | nil => rfl
  | cons c cs ih =>
    rw [exec, List.foldl_cons, ← exec, ih, apply_hash_get, List.reverse_cons, List.findSome?_append,
      List.findSome?_cons, List.findSome?_nil]
    cases cs.reverse.findSome? (RedisCmd.fieldEffect key f) <;> cases c.fieldEffect key f <;> rfl

theorem exec_zset (r : Redis V) (cmds : List (RedisCmd V)) (key m : String) :
    (r.exec cmds).zsets key m =
      (cmds.reverse.findSome? (RedisCmd.memberEffect key m)).getD (r.zsets key m) := by
  induction cmds generalizing r with
  | nil => rfl
  | cons c cs ih =>
    rw [exec, List.foldl_cons, ← exec, ih, apply_zset, List.reverse_cons, List.findSome?_append,
      List.findSome?_cons, List.findSome?_nil]
    cases cs.reverse.findSome? (RedisCmd.memberEffect key m) <;> cases c.memberEffect key m <;> rfl

theorem exec_hashes_of_forall (r : Redis V) {key : String} :
    ∀ {cmds : List (RedisCmd V)}, (∀ c ∈ cmds, ∀ f, c.fieldEffect key f = none) →
      (r.exec cmds).hashes key = r.hashes key
  | [], _ => rfl
  | c :: cs, h => by
    rw [exec, List.foldl_cons, ← exec, exec_hashes_of_forall _ fun c' hc' => h c' (List.mem_cons_of_mem _ hc'),
      apply_hashes_of_ne r c (h c (List.mem_cons_self _ _))]

end Redis

theorem List.findSome?_ite {α β : Type} (l : List α) (q : α → Prop) [DecidablePred q] (r : α → β) :
    l.findSome? (fun a => if q a then some (r a) else none) = (l.find? fun a => q a).map r := by
  induction l with
  | nil => rfl
  | cons a l ih => by_cases h : q a <;> simp [List.find?_cons, h, ih]

theorem List.map_find?_eq_const {α β : Type} [DecidableEq α] (l : List α) (x : α) (b : β) :
    (l.find? fun a => a = x).map (fun _ => b) = if x ∈ l then some b else none := by
  induction l with
  | nil => rfl
  | cons a l ih =>
    by_cases h : a = x
    · simp [h]
    · simp [h, ih, Ne.symm h]

theorem List.find?_reverse_of_pairwise {α : Type} {l : List α} {q : α → Bool}
    (h : l.Pairwise fun x y => q x → q y → False) : l.reverse.find? q = l.find? q := by
  induction l with
  | nil => rfl
  | cons x l ih =>
    rw [List.pairwise_cons] at h
    rw [List.reverse_cons, List.find?_append, ih h.2, List.find?_cons, List.find?_cons, List.find?_nil]
    cases hx : q x
    · cases l.find? q <;> rfl
    · rw [List.find?_eq_none.2 fun y hy hq => h.1 y hy hx hq]
      rfl

theorem foldlM_ok_induction {α β ε : Type} {f : β → α → ExceptT ε Option β}
    (R : List α → β → β → Prop) (nil : ∀ b, R [] b b)
    (cons : ∀ a l b b₁ b', (f b a).run = some (.ok b₁) → R l b₁ b' → R (a :: l) b b') :
    ∀ {l : List α} {b b' : β}, (l.foldlM f b).run = some (.ok b') → R l b b'
  | [], b, b', h => by cases h; exact nil b
  | a :: l, b, b', h => by
    rw [List.foldlM_cons, ExceptT.run_bind] at h
    rcases hf : (f b a).run with _ | _ | b₁ <;> simp only [hf] at h
    · cases h
    · cases h
    · exact cons a l b b₁ b' hf (foldlM_ok_induction R nil cons h)

theorem foldlM_run_none {α β ε : Type} {f : β → α → ExceptT ε Option β} :
    ∀ {l : List α} {b : β}, (l.foldlM f b).run = none → ∃ a ∈ l, ∃ b', (f b' a).run = none
  | [], b, h => by cases h
  | a :: l, b, h => by
    rw [List.foldlM_cons, ExceptT.run_bind] at h
    rcases hf : (f b a).run with _ | _ | b₁ <;> simp only [hf] at h
    · exact ⟨a, List.mem_cons_self _ _, b, hf⟩
    · cases h
    · obtain ⟨a', ha', b', h'⟩ := foldlM_run_none h
      exact ⟨a', List.mem_cons_of_mem _ ha', b', h'⟩

namespace TaskResultInserter

section Subtree

variable {V : Type} (codec : Codec V) (stored : RHash V) (traceKey : String)

/-- An out-message link between stored nodes: the node under `k` unpacks, and
one of its out-messages has the key `k'`. -/
def StoredLink (k k' : String) : Prop :=
  ∃ v node, stored.get k = some v ∧ codec.unpackNode v = .ok node ∧
    ∃ m ∈ node.transaction.outMsgs, k' = m.toHex

def Acyclic : Prop := ∀ k, ¬ Relation.TransGen (StoredLink codec stored) k k

def Subtree (k x : String) : Prop :=
  Relation.ReflTransGen (StoredLink codec stored) k x ∧ (stored.get x).isSome

def DeletedMember (k : String) (p : String × String) : Prop :=
  ∃ v node m, stored.get k = some v ∧ codec.unpackNode v = .ok node ∧
    node.transaction.inMsg = some m ∧ p = (node.transaction.account.toRaw, byAddrKey traceKey m)

def Adds (P : String → Prop) (Q : String × String → Prop)
    (keys keys' : List String × List (String × String)) : Prop :=
  (∀ x, x ∈ keys'.1 ↔ x ∈ keys.1 ∨ P x) ∧ ∀ p, p ∈ keys'.2 ↔ p ∈ keys.2 ∨ Q p

variable {codec stored traceKey}

theorem storedLink_iff {k k' : String} {v : V} {node : StoredNode} (hk : stored.get k = some v)
    (hn : codec.unpackNode v = .ok node) :
    StoredLink codec stored k k' ↔ ∃ m ∈ node.transaction.outMsgs, k' = m.toHex := by
  simp [StoredLink, hk, hn]

theorem not_subtree_of_get_none {k x : String} (hk : stored.get k = none) :
    ¬ Subtree codec stored k x := by
  rintro ⟨hr, hx⟩
  rcases Relation.ReflTransGen.cases_head_iff.1 hr with rfl | ⟨_, ⟨_, _, hk', -⟩, -⟩
  · simp [hk] at hx
  · simp [hk] at hk'

theorem subtree_iff {k x : String} {v : V} {node : StoredNode} (hk : stored.get k = some v)
    (hn : codec.unpackNode v = .ok node) :
    Subtree codec stored k x ↔ x = k ∨ ∃ m ∈ node.transaction.outMsgs, Subtree codec stored m.toHex x := by
  unfold Subtree
  rw [Relation.ReflTransGen.cases_head_iff]
  simp only [storedLink_iff hk hn]
  constructor
  · rintro ⟨rfl | ⟨_, ⟨m, hm, rfl⟩, hr⟩, hx⟩
    exacts [.inl rfl, .inr ⟨m, hm, hr, hx⟩]
  · rintro (rfl | ⟨m, hm, hr, hx⟩)
    exacts [⟨.inl rfl, by simp [hk]⟩, ⟨.inr ⟨_, ⟨m, hm, rfl⟩, hr⟩, hx⟩]

theorem deletedMember_iff {k : String} {v : V} {node : StoredNode} {m : Bits256} {p : String × String}
    (hk : stored.get k = some v) (hn : codec.unpackNode v = .ok node) (hm : node.transaction.inMsg = some m) :
    DeletedMember codec stored traceKey k p ↔ p = (node.transaction.account.toRaw, byAddrKey traceKey m) := by
  simp [DeletedMember, hk, hn, hm]

theorem deleteDbSubtree_chain : ∀ {n : Nat} {key : String} {keys : List String × List (String × String)},
    (deleteDbSubtree codec stored traceKey n key keys).run = none →
      ∃ l, List.Chain (StoredLink codec stored) key l ∧ n ≤ l.length
  | 0, _, _, _ => ⟨[], .nil, le_refl _⟩
  | n + 1, key, keys, h => by
    unfold deleteDbSubtree at h
    rcases hk : stored.get key with _ | v
    · simp [hk] at h
    rcases hn : codec.unpackNode v with w | node
    · simp [hk, hn] at h
    simp only [hk, hn, ExceptT.run_bind] at h
    rcases hf : (node.transaction.outMsgs.foldlM
      (fun keys h => deleteDbSubtree codec stored traceKey n h.toHex keys) keys).run with _ | _ | keys₁
    · obtain ⟨m, hm, keys', h'⟩ := foldlM_run_none hf
      obtain ⟨l, hl, hn'⟩ := deleteDbSubtree_chain h'
      exact ⟨m.toHex :: l, .cons ⟨v, node, hk, hn, m, hm, rfl⟩ hl, by simp [hn']⟩
    all_goals simp only [hf] at h
    · cases h
    · rcases hm : node.transaction.inMsg with _ | m <;> simp [hm] at h

theorem chain_present {k : String} :
    ∀ {l : List String}, List.Chain (StoredLink codec stored) k l →
      ∀ x ∈ (k :: l).dropLast, (stored.get x).isSome
  | [], _, x, hx => by simp at hx
  | _ :: _, .cons ⟨_, _, hk, _⟩ hl, x, hx => by
    rcases List.mem_cons.1 hx with rfl | hx
    · simp [hk]
    · exact chain_present hl x hx

theorem chain_length_le (hac : Acyclic codec stored) {k : String} {l : List String}
    (h : List.Chain (StoredLink codec stored) k l) : l.length ≤ stored.fields.length := by
  have hp : (k :: l).Pairwise (Relation.TransGen (StoredLink codec stored)) :=
    List.chain_iff_pairwise.1 (h.imp fun _ _ => .single)
  have hnd : (k :: l).Nodup := hp.imp fun {a b} hab (he : a = b) => by subst he; exact hac a hab
  have hsub : (k :: l).dropLast ⊆ stored.fields := fun x hx =>
    (stored.mem_fields x).2 (chain_present h x hx)
  simpa using (List.subperm_of_subset (hnd.sublist (List.dropLast_sublist _)) hsub).length_le

theorem deleteDbSubtree_ne_none (hac : Acyclic codec stored) (key : String)
    (keys : List String × List (String × String)) :
    (deleteDbSubtree codec stored traceKey (stored.fields.length + 1) key keys).run ≠ none := by
  intro h
  obtain ⟨l, hl, hn⟩ := deleteDbSubtree_chain h
  have := chain_length_le hac hl
  omega

theorem Adds.trans {P P' : String → Prop} {Q Q' : String × String → Prop}
    {a b c : List String × List (String × String)} (h₁ : Adds P Q a b) (h₂ : Adds P' Q' b c) :
    Adds (fun x => P x ∨ P' x) (fun p => Q p ∨ Q' p) a c :=
  ⟨fun x => by rw [h₂.1, h₁.1, or_assoc], fun p => by rw [h₂.2, h₁.2, or_assoc]⟩

theorem Adds.of_iff {P P' : String → Prop} {Q Q' : String × String → Prop}
    {a b : List String × List (String × String)} (h : Adds P Q a b) (hP : ∀ x, P x ↔ P' x)
    (hQ : ∀ p, Q p ↔ Q' p) : Adds P' Q' a b :=
  ⟨fun x => (h.1 x).trans (or_congr_right (hP x)), fun p => (h.2 p).trans (or_congr_right (hQ p))⟩

theorem foldlM_adds {α : Type}
    {f : List String × List (String × String) → α → ExceptT Status Option (List String × List (String × String))}
    {P : α → String → Prop} {Q : α → String × String → Prop}
    (hf : ∀ a b b', (f b a).run = some (.ok b') → Adds (P a) (Q a) b b') {l : List α}
    {b b' : List String × List (String × String)} (h : (l.foldlM f b).run = some (.ok b')) :
    Adds (fun x => ∃ a ∈ l, P a x) (fun p => ∃ a ∈ l, Q a p) b b' :=
  foldlM_ok_induction (fun l b b' => Adds (fun x => ∃ a ∈ l, P a x) (fun p => ∃ a ∈ l, Q a p) b b')
    (fun _ => ⟨fun _ => by simp, fun _ => by simp⟩)
    (fun a _ _ _ _ h₁ h₂ => ((hf a _ _ h₁).trans h₂).of_iff (fun _ => by simp) (fun _ => by simp)) h

theorem subtreeMember_iff {k : String} {v : V} {node : StoredNode} {m : Bits256} {p : String × String}
    (hk : stored.get k = some v) (hn : codec.unpackNode v = .ok node) (hm : node.transaction.inMsg = some m) :
    (∃ x, Subtree codec stored k x ∧ DeletedMember codec stored traceKey x p) ↔
      p = (node.transaction.account.toRaw, byAddrKey traceKey m) ∨
        ∃ o ∈ node.transaction.outMsgs, ∃ x, Subtree codec stored o.toHex x ∧
          DeletedMember codec stored traceKey x p := by
  simp only [subtree_iff hk hn, or_and_right, exists_or, exists_eq_left, deletedMember_iff hk hn hm]
  exact or_congr_right ⟨fun ⟨x, ⟨o, ho, hs⟩, hd⟩ => ⟨o, ho, x, hs, hd⟩,
    fun ⟨o, ho, x, hs, hd⟩ => ⟨x, ⟨o, ho, hs⟩, hd⟩⟩

/-- `delete_db_subtree(key)` adds exactly the stored keys reached from `key`
and the sorted-set members of their nodes. -/
theorem deleteDbSubtree_adds : ∀ {n : Nat} {key : String} {keys keys' : List String × List (String × String)},
    (deleteDbSubtree codec stored traceKey n key keys).run = some (.ok keys') →
      Adds (Subtree codec stored key)
        (fun p => ∃ x, Subtree codec stored key x ∧ DeletedMember codec stored traceKey x p) keys keys'
  | 0, _, _, _, h => by cases h
  | n + 1, key, keys, keys', h => by
    unfold deleteDbSubtree at h
    rcases hk : stored.get key with _ | v
    · simp only [hk, pure, ExceptT.pure, ExceptT.run_mk, Option.some.injEq, Except.ok.injEq] at h
      subst h
      exact ⟨fun x => by simp [not_subtree_of_get_none hk], fun p => by simp [not_subtree_of_get_none hk]⟩
    rcases hn : codec.unpackNode v with w | node
    · simp [hk, hn] at h
    simp only [hk, hn, ExceptT.run_bind] at h
    rcases hf : (node.transaction.outMsgs.foldlM
      (fun keys h => deleteDbSubtree codec stored traceKey n h.toHex keys) keys).run with _ | _ | keys₁ <;>
      simp only [hf] at h
    · cases h
    · cases h
    rcases hm : node.transaction.inMsg with _ | m <;> simp [hm] at h
    subst h
    have h₁ := foldlM_adds (fun _ _ _ hb => deleteDbSubtree_adds hb) hf
    refine ⟨fun x => ?_, fun p => ?_⟩
    · rw [List.mem_append, List.mem_singleton, h₁.1, subtree_iff hk hn]
      exact or_assoc.trans (or_congr_right or_comm)
    · rw [List.mem_append, List.mem_singleton, h₁.2]
      dsimp only
      rw [subtreeMember_iff hk hn hm]
      exact or_assoc.trans (or_congr_right or_comm)

end Subtree

end TaskResultInserter

def TraceTree.interfaces : TraceTree → List String
  | .mk _ _ _ interfaces _ => interfaces

def InsertExt.storedNode (ext : InsertExt) : TraceTree → Except Status StoredNode
  | .mk root wc emulated _ _ => (ext.parseTx root wc).map fun tx => ⟨tx, emulated⟩

def InsertExt.parseNodes (ext : InsertExt) (ns : List TraceTree) :
    Except Status (List (TraceTree × StoredNode)) :=
  ns.mapM fun n => (ext.storedNode n).map (n, ·)

namespace TaskResultInserter

def Collected.keys (c : Collected) : List String × List (String × String) :=
  (c.txKeysToDelete, c.addrKeysToDelete)

def accountInterfaces (pairs : List (TraceTree × StoredNode)) : List (StdAddress × List String) :=
  pairs.map fun p => (p.2.transaction.account, p.1.interfaces)

section Visit

variable {V : Type} (codec : Codec V) (stored : RHash V) (traceKey : String)

def NodeDeletes (sn : StoredNode) (x : String) : Prop :=
  sn.emulated = false ∧ ∃ m, sn.transaction.inMsg = some m ∧ Subtree codec stored m.toHex x

def DeletedKey (nodes : List StoredNode) (x : String) : Prop :=
  ∃ sn ∈ nodes, NodeDeletes codec stored sn x

def DeletedMemberOf (nodes : List StoredNode) (p : String × String) : Prop :=
  ∃ x, DeletedKey codec stored nodes x ∧ DeletedMember codec stored traceKey x p

variable {codec stored traceKey}

theorem visit_ok {ext : InsertExt} {c c' : Collected} {t : TraceTree}
    (h : (visit codec stored traceKey ext c t).run = some (.ok c')) :
    ∃ sn, ext.storedNode t = .ok sn ∧ c'.flattenedTrace = c.flattenedTrace ++ [sn] ∧
      c'.addrInterfaces = assignInterfaces c.addrInterfaces sn.transaction.account t.interfaces ∧
      Adds (NodeDeletes codec stored sn)
        (fun p => ∃ x, NodeDeletes codec stored sn x ∧ DeletedMember codec stored traceKey x p)
        c.keys c'.keys := by
  obtain ⟨root, wc, emulated, interfaces, children⟩ := t
  unfold visit at h
  rcases hp : ext.parseTx root wc with e | tx
  · simp [hp] at h
  refine ⟨⟨tx, emulated⟩, by simp [InsertExt.storedNode, hp, Except.map], ?_⟩
  simp only [hp, ExceptT.run_bind] at h
  cases emulated
  · rcases hm : tx.inMsg with _ | m
    · simp [hm] at h
    simp only [hm, Bool.false_eq_true, if_false] at h
    rcases hd : (deleteDbSubtree codec stored traceKey (stored.fields.length + 1) m.toHex
      (c.txKeysToDelete, c.addrKeysToDelete)).run with _ | _ | keys <;> simp [hd, Except.map] at h
    subst h
    exact ⟨rfl, rfl, (deleteDbSubtree_adds hd).of_iff (fun x => by simp [NodeDeletes, hm])
      (fun p => by simp [NodeDeletes, hm])⟩
  · simp at h
    subst h
    exact ⟨rfl, rfl, ⟨fun x => by simp [NodeDeletes, Collected.keys],
      fun p => by simp [NodeDeletes, Collected.keys]⟩⟩

theorem visits_ok {ext : InsertExt} {ns : List TraceTree} {c c' : Collected}
    (h : (ns.foldlM (visit codec stored traceKey ext) c).run = some (.ok c')) :
    ∃ pairs, ext.parseNodes ns = .ok pairs ∧
      c'.flattenedTrace = c.flattenedTrace ++ pairs.map (·.2) ∧
      c'.addrInterfaces = (accountInterfaces pairs).foldl
        (fun m p => assignInterfaces m p.1 p.2) c.addrInterfaces ∧
      Adds (DeletedKey codec stored (pairs.map (·.2))) (DeletedMemberOf codec stored traceKey (pairs.map (·.2)))
        c.keys c'.keys := by
  refine foldlM_ok_induction (fun ns c c' => ∃ pairs, ext.parseNodes ns = .ok pairs ∧
      c'.flattenedTrace = c.flattenedTrace ++ pairs.map (·.2) ∧
      c'.addrInterfaces = (accountInterfaces pairs).foldl
        (fun m p => assignInterfaces m p.1 p.2) c.addrInterfaces ∧
      Adds (DeletedKey codec stored (pairs.map (·.2))) (DeletedMemberOf codec stored traceKey (pairs.map (·.2)))
        c.keys c'.keys) (fun c => ⟨[], rfl, by simp, rfl, ?_⟩) ?_ h
  · exact ⟨fun _ => by simp [DeletedKey], fun _ => by simp [DeletedMemberOf, DeletedKey]⟩
  · rintro t ns c c₁ c' h₁ ⟨pairs, hp, hf, hi, ha⟩
    obtain ⟨sn, hs, hf₁, hi₁, ha₁⟩ := visit_ok h₁
    refine ⟨(t, sn) :: pairs, ?_, by simp [hf, hf₁], by simp [hi, hi₁, accountInterfaces], ?_⟩
    · rw [InsertExt.parseNodes, List.mapM_cons, ← InsertExt.parseNodes, hp]
      simp only [hs, Except.map]
      rfl
    · refine (ha₁.trans ha).of_iff (fun x => by simp [DeletedKey]) (fun p => ?_)
      simp only [DeletedMemberOf, DeletedKey, List.map_cons, List.mem_cons, exists_eq_or_imp, or_and_right,
        exists_or, exists_eq_left]

theorem visit_ne_none (hac : Acyclic codec stored) (ext : InsertExt) (c : Collected) (t : TraceTree) :
    (visit codec stored traceKey ext c t).run ≠ none := by
  obtain ⟨root, wc, emulated, interfaces, children⟩ := t
  unfold visit
  rcases hp : ext.parseTx root wc with e | tx
  · simp [hp]
  cases emulated
  · rcases hm : tx.inMsg with _ | m
    · simp [hp, hm]
    rcases hd : (deleteDbSubtree codec stored traceKey (stored.fields.length + 1) m.toHex
      (c.txKeysToDelete, c.addrKeysToDelete)).run with _ | _ | keys
    · exact absurd hd (deleteDbSubtree_ne_none hac _ _)
    all_goals simp [hp, hm, hd]
  · simp [hp]

end Visit

section Interfaces

theorem find?_assignInterfaces {r : StdAddress → Prop} [DecidablePred r] (hr : ∀ a b, r a → r b → a = b)
    (m : List (StdAddress × List String)) (a : StdAddress) (ifs : List String) :
    (assignInterfaces m a ifs).find? (fun p => r p.1) =
      if r a then some (a, ifs) else m.find? fun p => r p.1 := by
  unfold assignInterfaces
  split
  · rename_i hany
    rw [List.find?_map]
    by_cases ha : r a
    · have hq : ((fun p : StdAddress × List String => decide (r p.1)) ∘
          fun p => if p.1 = a then (a, ifs) else p) = fun p => decide (p.1 = a) := by
        funext p
        by_cases hp : p.1 = a
        · simp [hp, ha]
        · simpa [hp] using fun h => hp (hr _ _ h ha)
      obtain ⟨x, hx, hxa⟩ := List.any_eq_true.1 hany
      have hs : (m.find? fun p => decide (p.1 = a)).isSome := List.find?_isSome.2 ⟨x, hx, hxa⟩
      obtain ⟨y, hf⟩ := Option.isSome_iff_exists.1 hs
      have hy : y.1 = a := by simpa using List.find?_some hf
      rw [hq, if_pos ha, hf, Option.map_some', if_pos hy, ← hy]
    · have hq : ((fun p : StdAddress × List String => decide (r p.1)) ∘
          fun p => if p.1 = a then (a, ifs) else p) = fun p => decide (r p.1) := by
        funext p
        by_cases hp : p.1 = a <;> simp [hp, ha]
      rw [hq, if_neg ha]
      rcases hf : m.find? (fun p => decide (r p.1)) with _ | y
      · rw [hf]; rfl
      · have hya : y.1 ≠ a := fun h => ha (h ▸ by simpa using List.find?_some hf)
        rw [hf, Option.map_some', if_neg hya]
  · rename_i hany
    rw [List.find?_append]
    by_cases ha : r a
    · have hm : m.find? (fun p => decide (r p.1)) = none := List.find?_eq_none.2 fun p hp hrp =>
        hany (List.any_eq_true.2 ⟨p, hp, by simpa using hr _ _ (by simpa using hrp) ha⟩)
      simp [hm, ha]
    · simp [ha]

theorem find?_foldl_assignInterfaces {r : StdAddress → Prop} [DecidablePred r]
    (hr : ∀ a b, r a → r b → a = b) :
    ∀ (l m : List (StdAddress × List String)),
      (l.foldl (fun m p => assignInterfaces m p.1 p.2) m).find? (fun p => r p.1) =
        (l.reverse.find? fun p => r p.1).or (m.find? fun p => r p.1)
  | [], _ => rfl
  | (a, ifs) :: l, m => by
    rw [List.foldl_cons, find?_foldl_assignInterfaces hr l, find?_assignInterfaces hr, List.reverse_cons,
      List.find?_append, Option.or_assoc, List.find?_cons, List.find?_nil]
    by_cases ha : r a <;> simp [ha]

theorem nodup_assignInterfaces {m : List (StdAddress × List String)} (h : (m.map (·.1)).Nodup)
    (a : StdAddress) (ifs : List String) : ((assignInterfaces m a ifs).map (·.1)).Nodup := by
  unfold assignInterfaces
  split
  · rw [List.map_map]
    convert h using 1
    exact List.map_congr_left fun p _ => by by_cases hp : p.1 = a <;> simp [hp]
  · rename_i hany
    have ha : a ∉ m.map (·.1) := fun ha => hany (List.any_eq_true.2 (by simpa using ha))
    rw [List.map_append]
    exact List.nodup_append_comm.2 (List.nodup_cons.2 ⟨ha, h⟩)

theorem nodup_foldl_assignInterfaces :
    ∀ (l m : List (StdAddress × List String)), (m.map (·.1)).Nodup →
      ((l.foldl (fun m p => assignInterfaces m p.1 p.2) m).map (·.1)).Nodup
  | [], _, h => h
  | (a, ifs) :: l, _, h => nodup_foldl_assignInterfaces l _ (nodup_assignInterfaces h a ifs)

theorem find?_reverse_foldl_assignInterfaces (l : List (StdAddress × List String)) (f : String) :
    ((l.foldl (fun m p => assignInterfaces m p.1 p.2) []).reverse.find? fun p => p.1.toRaw = f) =
      l.reverse.find? fun p => p.1.toRaw = f := by
  have hr : ∀ a b : StdAddress, a.toRaw = f → b.toRaw = f → a = b :=
    fun a b ha hb => StdAddress.toRaw_injective (ha.trans hb.symm)
  have hnd := List.pairwise_map.1 (nodup_foldl_assignInterfaces l [] List.nodup_nil)
  rw [List.find?_reverse_of_pairwise (hnd.imp fun hne hx hy => hne (hr _ _ (by simpa using hx) (by simpa using hy))),
    find?_foldl_assignInterfaces hr]
  exact Option.or_none

end Interfaces

section Commands

variable {V : Type} {codec : Codec V} {traceKey : String}

theorem startUp_run (ext : InsertExt) (codec : Codec V) (store : Redis V) (traceId : Bits256)
    (t : TraceTree) :
    (startUp ext codec store traceId t).run =
      ((t.nodes.foldlM (visit codec (store.hashes traceId.toHex) traceId.toHex ext) ⟨[], [], [], []⟩).run).map
        fun r => r.bind (commands codec traceId.toHex) := by
  unfold startUp
  rw [ExceptT.run_bind]
  rcases (t.nodes.foldlM (visit codec (store.hashes traceId.toHex) traceId.toHex ext)
    ⟨[], [], [], []⟩).run with _ | _ | c <;> rfl

theorem commands_ok {c : Collected} {cmds : List (RedisCmd V)} (h : commands codec traceKey c = .ok cmds) :
    ∃ writes, c.flattenedTrace.mapM (nodeWrites codec traceKey) = .ok writes ∧
      cmds = c.txKeysToDelete.map (RedisCmd.hdel traceKey) ++
        c.addrKeysToDelete.map (fun k => RedisCmd.zrem k.1 k.2) ++ writes.flatten ++
        c.addrInterfaces.map (fun p => RedisCmd.hset traceKey p.1.toRaw (codec.packInterfaces p.2)) ++
        [.publish "new_trace" traceKey] := by
  rcases hw : c.flattenedTrace.mapM (nodeWrites codec traceKey) with e | writes <;>
    simp only [commands, hw, bind, Except.bind, pure, Except.pure, Except.ok.injEq, reduceCtorEq] at h
  exact ⟨writes, rfl, h.symm⟩

theorem nodeWrites_ok {sn : StoredNode} {w : List (RedisCmd V)} (h : nodeWrites codec traceKey sn = .ok w) :
    ∃ m, sn.transaction.inMsg = some m ∧ w = [RedisCmd.hset traceKey m.toHex (codec.packNode sn),
      .zadd sn.transaction.account.toRaw (byAddrKey traceKey m) sn.transaction.lt] := by
  unfold nodeWrites at h
  split at h
  · cases h
  · cases h; exact ⟨_, ‹_›, rfl⟩

theorem findSome?_flatten_mapM {α γ β : Type} {g : α → Except Status (List γ)} {E : γ → Option β}
    {q : α → Bool} {r : α → β}
    (hg : ∀ a w, g a = .ok w → w.reverse.findSome? E = if q a then some (r a) else none) :
    ∀ {l : List α} {ws : List (List γ)}, l.mapM g = .ok ws →
      ws.flatten.reverse.findSome? E = (l.reverse.find? q).map r
  | [], ws, h => by cases h; rfl
  | a :: l, ws, h => by
    rw [List.mapM_cons] at h
    rcases ha : g a with e | w <;> simp only [ha, bind, Except.bind, reduceCtorEq] at h
    rcases hl : l.mapM g with e | ws' <;>
      simp only [hl, bind, Except.bind, pure, Except.pure, Except.ok.injEq, reduceCtorEq] at h
    subst h
    rw [List.flatten_cons, List.reverse_append, List.findSome?_append, findSome?_flatten_mapM hg hl,
      hg a w ha, List.reverse_cons, List.find?_append, List.find?_cons, List.find?_nil]
    cases (l.reverse.find? q) <;> cases q a <;> rfl

theorem exec_commands_hash_get {c : Collected} {cmds : List (RedisCmd V)}
    (h : commands codec traceKey c = .ok cmds) (r : Redis V) (f : String) :
    ((r.exec cmds).hashes traceKey).get f =
      match (c.addrInterfaces.reverse.find? fun p => p.1.toRaw = f),
        (c.flattenedTrace.reverse.find? fun sn => sn.transaction.inMsg.map Bits256.toHex = some f) with
      | some p, _ => some (codec.packInterfaces p.2)
      | none, some sn => some (codec.packNode sn)
      | none, none => if f ∈ c.txKeysToDelete then none else (r.hashes traceKey).get f := by
  obtain ⟨writes, hw, rfl⟩ := commands_ok h
  have hn : writes.flatten.reverse.findSome? (RedisCmd.fieldEffect traceKey f) =
      (c.flattenedTrace.reverse.find? fun sn => sn.transaction.inMsg.map Bits256.toHex = some f).map
        fun sn => some (codec.packNode sn) := by
    refine findSome?_flatten_mapM (fun sn w hsn => ?_) hw
    obtain ⟨m, hm, rfl⟩ := nodeWrites_ok hsn
    by_cases hf : m.toHex = f <;> simp [RedisCmd.fieldEffect, hm, hf]
  simp only [Redis.exec_hash_get, List.reverse_append, List.findSome?_append, ← List.map_reverse,
    List.findSome?_map, hn, Function.comp_def, RedisCmd.fieldEffect, true_and, List.findSome?_ite,
    List.map_find?_eq_const, List.mem_reverse, List.reverse_singleton, List.findSome?_cons,
    List.findSome?_nil, Option.none_or, List.findSome?_eq_none_iff.2 fun _ _ => rfl]
  generalize (c.addrInterfaces.reverse.find? fun a => decide (a.1.toRaw = f)) = oi
  generalize (c.flattenedTrace.reverse.find? fun sn => sn.transaction.inMsg.map Bits256.toHex = some f) = os
  rcases oi with _ | p <;> rcases os with _ | sn
  · by_cases hf : f ∈ c.txKeysToDelete <;> simp [hf]
  all_goals rfl

theorem exec_commands_zset {c : Collected} {cmds : List (RedisCmd V)}
    (h : commands codec traceKey c = .ok cmds) (r : Redis V) (key m : String) :
    (r.exec cmds).zsets key m =
      match c.flattenedTrace.reverse.find? fun sn =>
          sn.transaction.account.toRaw = key ∧ sn.transaction.inMsg.map (byAddrKey traceKey) = some m with
      | some sn => some sn.transaction.lt
      | none => if (key, m) ∈ c.addrKeysToDelete then none else r.zsets key m := by
  obtain ⟨writes, hw, rfl⟩ := commands_ok h
  have hn : writes.flatten.reverse.findSome? (RedisCmd.memberEffect key m) =
      (c.flattenedTrace.reverse.find? fun sn => sn.transaction.account.toRaw = key ∧
        sn.transaction.inMsg.map (byAddrKey traceKey) = some m).map fun sn => some sn.transaction.lt := by
    refine findSome?_flatten_mapM (fun sn w hsn => ?_) hw
    obtain ⟨m', hm, rfl⟩ := nodeWrites_ok hsn
    by_cases hk : sn.transaction.account.toRaw = key <;> by_cases hb : byAddrKey traceKey m' = m <;>
      simp [RedisCmd.memberEffect, hm, hk, hb]
  have hz : (RedisCmd.memberEffect key m ∘ fun k : String × String => (RedisCmd.zrem k.1 k.2 : RedisCmd V)) =
      fun k => if k = (key, m) then some none else none := by
    funext k; simp [RedisCmd.memberEffect, Prod.ext_iff]
  simp only [Redis.exec_zset, List.reverse_append, List.findSome?_append, ← List.map_reverse,
    List.findSome?_map, hn, hz]
  simp only [Function.comp_def, List.findSome?_ite, List.map_find?_eq_const,
    List.mem_reverse, List.reverse_singleton, List.findSome?_cons, List.findSome?_nil, RedisCmd.memberEffect,
    Option.none_or, List.findSome?_eq_none_iff.2 fun _ _ => rfl]
  generalize (c.flattenedTrace.reverse.find? fun sn => sn.transaction.account.toRaw = key ∧
    sn.transaction.inMsg.map (byAddrKey traceKey) = some m) = os
  rcases os with _ | sn
  · by_cases hm : (key, m) ∈ c.addrKeysToDelete <;> simp [hm]
  · rfl

theorem exec_commands_hashes {c : Collected} {cmds : List (RedisCmd V)}
    (h : commands codec traceKey c = .ok cmds) (r : Redis V) {k : String} (hk : k ≠ traceKey) :
    (r.exec cmds).hashes k = r.hashes k := by
  obtain ⟨writes, hw, rfl⟩ := commands_ok h
  refine Redis.exec_hashes_of_forall r fun cmd hc f => ?_
  simp only [List.mem_append, List.mem_map, List.mem_flatten, List.mem_singleton] at hc
  rcases hc with (((⟨_, _, rfl⟩ | ⟨_, _, rfl⟩) | ⟨w, hw', hc⟩) | ⟨_, _, rfl⟩) | rfl
  · simp [RedisCmd.fieldEffect, Ne.symm hk]
  · rfl
  · obtain ⟨sn, -, hsn⟩ := mapM_ok_mem hw w hw'
    obtain ⟨m, -, rfl⟩ := nodeWrites_ok hsn
    rcases List.mem_pair.1 hc with rfl | rfl <;> simp [RedisCmd.fieldEffect, Ne.symm hk]
  · simp [RedisCmd.fieldEffect, Ne.symm hk]
  · rfl

end Commands

section Effect

variable {V : Type} (codec : Codec V) (traceKey : String)

def lastInterfaces (ifaces : List (StdAddress × List String)) (f : String) : Option (List String) :=
  (ifaces.reverse.find? fun p => p.1.toRaw = f).map (·.2)

def lastNode (nodes : List StoredNode) (f : String) : Option StoredNode :=
  nodes.reverse.find? fun sn => sn.transaction.inMsg.map Bits256.toHex = some f

def lastScore (nodes : List StoredNode) (key m : String) : Option Nat :=
  (nodes.reverse.find? fun sn => sn.transaction.account.toRaw = key ∧
    sn.transaction.inMsg.map (byAddrKey traceKey) = some m).map (·.transaction.lt)

/-- What a successful run over the tree nodes `pairs` leaves in `new` from the state
`old`: in the trace hash an account's interfaces, else a node, else nothing on a deleted
key, else the old field; in the sorted sets likewise; no other hash changes. -/
structure InsertEffect (old new : Redis V) (pairs : List (TraceTree × StoredNode)) : Prop where
  account_field : ∀ f ifs, lastInterfaces (accountInterfaces pairs) f = some ifs →
    (new.hashes traceKey).get f = some (codec.packInterfaces ifs)
  node_field : ∀ f sn, lastInterfaces (accountInterfaces pairs) f = none →
    lastNode (pairs.map (·.2)) f = some sn → (new.hashes traceKey).get f = some (codec.packNode sn)
  deleted_field : ∀ f, lastInterfaces (accountInterfaces pairs) f = none → lastNode (pairs.map (·.2)) f = none →
    DeletedKey codec (old.hashes traceKey) (pairs.map (·.2)) f → (new.hashes traceKey).get f = none
  kept_field : ∀ f, lastInterfaces (accountInterfaces pairs) f = none → lastNode (pairs.map (·.2)) f = none →
    ¬ DeletedKey codec (old.hashes traceKey) (pairs.map (·.2)) f →
      (new.hashes traceKey).get f = (old.hashes traceKey).get f
  added_member : ∀ key m lt, lastScore traceKey (pairs.map (·.2)) key m = some lt → new.zsets key m = some lt
  deleted_member : ∀ key m, lastScore traceKey (pairs.map (·.2)) key m = none →
    DeletedMemberOf codec (old.hashes traceKey) traceKey (pairs.map (·.2)) (key, m) → new.zsets key m = none
  kept_member : ∀ key m, lastScore traceKey (pairs.map (·.2)) key m = none →
    ¬ DeletedMemberOf codec (old.hashes traceKey) traceKey (pairs.map (·.2)) (key, m) →
      new.zsets key m = old.zsets key m
  other_hashes : ∀ k, k ≠ traceKey → new.hashes k = old.hashes k

theorem toHex_ne_toRaw (m : Bits256) (a : StdAddress) : m.toHex ≠ a.toRaw := fun h => by
  have hl := congrArg String.length h
  have : (":" : String).length = 1 := rfl
  simp only [StdAddress.toRaw, String.length_append, Bits256.length_toHex, this] at hl
  omega

variable {codec}

/-- A run that commits parsed every node of the tree, and its `EXEC` has the
effect `InsertEffect` describes. -/
theorem startUp_effect {ext : InsertExt} {store : Redis V} {traceId : Bits256} {t : TraceTree}
    {cmds : List (RedisCmd V)} (h : (startUp ext codec store traceId t).run = some (.ok cmds)) :
    ∃ pairs, ext.parseNodes t.nodes = .ok pairs ∧
      InsertEffect codec traceId.toHex store (store.exec cmds) pairs := by
  rw [startUp_run] at h
  obtain ⟨r, hr, hb⟩ := Option.map_eq_some'.1 h
  rcases r with e | c
  · cases hb
  obtain ⟨pairs, hp, hf, hi, ha⟩ := visits_ok hr
  have hN : c.flattenedTrace = pairs.map (·.2) := by simpa using hf
  have hI : ∀ f, (c.addrInterfaces.reverse.find? fun p => p.1.toRaw = f) =
      (accountInterfaces pairs).reverse.find? fun p => p.1.toRaw = f := fun f => by
    rw [hi, find?_reverse_foldl_assignInterfaces]
  have hField := exec_commands_hash_get hb store
  have hMember := exec_commands_zset hb store
  rw [hN] at hField hMember
  refine ⟨pairs, hp, ⟨fun f ifs hl => ?_, fun f sn hl hn => ?_, fun f hl hn hd => ?_,
    fun f hl hn hd => ?_, fun key m lt hs => ?_, fun key m hs hd => ?_, fun key m hs hd => ?_,
    fun k hk => exec_commands_hashes hb store hk⟩⟩
  · obtain ⟨p, hpf, rfl⟩ := Option.map_eq_some'.1 hl
    rw [hField, hI, hpf]
  · rw [hField, hI, Option.map_eq_none'.1 hl, ← lastNode, hn]
  · have hk : f ∈ c.txKeysToDelete := (ha.1 f).2 (.inr hd)
    rw [hField, hI, Option.map_eq_none'.1 hl, ← lastNode, hn, if_pos hk]
  · have hk : f ∉ c.txKeysToDelete := fun hk => by simpa [hd, Collected.keys] using (ha.1 f).1 hk
    rw [hField, hI, Option.map_eq_none'.1 hl, ← lastNode, hn, if_neg hk]
  · obtain ⟨sn, hsn, rfl⟩ := Option.map_eq_some'.1 hs
    rw [hMember, hsn]
  · have hk : (key, m) ∈ c.addrKeysToDelete := (ha.2 _).2 (.inr hd)
    rw [hMember, Option.map_eq_none'.1 hs, if_pos hk]
  · have hk : (key, m) ∉ c.addrKeysToDelete := fun hk => by simpa [hd, Collected.keys] using (ha.2 _).1 hk
    rw [hMember, Option.map_eq_none'.1 hs, if_neg hk]

theorem startUp_ne_none {ext : InsertExt} {store : Redis V} {traceId : Bits256} {t : TraceTree}
    (hac : Acyclic codec (store.hashes traceId.toHex)) : (startUp ext codec store traceId t).run ≠ none := by
  rw [startUp_run, Ne, Option.map_eq_none']
  intro h
  obtain ⟨n, -, c, hc⟩ := foldlM_run_none h
  exact visit_ne_none hac ext c n hc

end Effect

end TaskResultInserter

/-- `RedisTaskResultInsertManager::insert`: the constructor takes the trace with
`result_.move_as_ok()`, which aborts on an error result; otherwise `start_up` runs and
its promise gets the error or the value after `EXEC`. -/
def RedisTaskResultInsertManager.insert {V : Type} (ext : InsertExt) (codec : Codec V) (store : Redis V)
    (result : Except Status (Bits256 × TraceTree)) : Option (ImplEnd (List (RedisCmd V))) :=
  match result with
  | .error e => some (.crash e)
  | .ok (traceId, t) => (TaskResultInserter.startUp ext codec store traceId t).run.map fun
    | .error e => .fail e
    | .ok cmds => .done cmds

open TaskResultInserter in
theorem RedisTaskResultInsertManager.insert_effect {V : Type} (ext : InsertExt) (codec : Codec V)
    (store : Redis V) :
    (∀ e, insert ext codec store (.error e) = some (.crash e)) ∧
    ∀ traceId t, Acyclic codec (store.hashes traceId.toHex) →
      ∃ r, insert ext codec store (.ok (traceId, t)) = some r ∧
        ((∃ e, r = .fail e) ∨ ∃ cmds pairs, r = .done cmds ∧ ext.parseNodes t.nodes = .ok pairs ∧
          InsertEffect codec traceId.toHex store (store.exec cmds) pairs) ∧
        ∀ e, ext.parseNodes t.nodes = .error e → ∃ e', r = .fail e' := by
  refine ⟨fun _ => rfl, fun traceId t hac => ?_⟩
  rcases hr : (startUp ext codec store traceId t).run with _ | e | cmds
  · exact absurd hr (startUp_ne_none hac)
  · exact ⟨.fail e, by simp [insert, hr], .inl ⟨e, rfl⟩, fun _ _ => ⟨e, rfl⟩⟩
  · obtain ⟨pairs, hp, he⟩ := startUp_effect hr
    exact ⟨.done cmds, by simp [insert, hr], .inr ⟨cmds, pairs, rfl, hp, he⟩,
      fun e he' => by rw [hp] at he'; cases he'⟩

theorem TaskResultInserter.acyclic_empty {V : Type} (codec : Codec V) (key : String) :
    TaskResultInserter.Acyclic codec ((Redis.empty : Redis V).hashes key) := fun _ h => by
  obtain ⟨_, ⟨_, _, hk, -⟩, -⟩ := Relation.TransGen.head'_iff.1 h
  cases hk

open TaskResultInserter in
/-- Run `a` of the sample, inserted into an empty store. -/
theorem sampleInsert_effect :
    Acyclic StoredValue.codec ((Redis.empty : Redis StoredValue).hashes sampleTraceId.toHex) ∧
    ∃ r, RedisTaskResultInsertManager.insert sampleInsertExt StoredValue.codec Redis.empty
        (.ok (sampleTraceId, sampleTrees .a)) = some r ∧
      ((∃ e, r = .fail e) ∨ ∃ cmds pairs, r = .done cmds ∧ sampleInsertExt.parseNodes (sampleTrees .a).nodes = .ok pairs ∧
        InsertEffect StoredValue.codec sampleTraceId.toHex Redis.empty (Redis.empty.exec cmds) pairs) ∧
      ∀ e, sampleInsertExt.parseNodes (sampleTrees .a).nodes = .error e → ∃ e', r = .fail e' :=
  ⟨acyclic_empty _ _, (RedisTaskResultInsertManager.insert_effect sampleInsertExt StoredValue.codec Redis.empty).2
    sampleTraceId (sampleTrees .a) (acyclic_empty _ _)⟩

namespace TaskResultInserter

section Accounts

variable {V : Type} {codec : Codec V}

theorem deletedKey_hex {stored : RHash V} {nodes : List StoredNode} {x : String}
    (h : DeletedKey codec stored nodes x) : ∃ m : Bits256, x = m.toHex := by
  obtain ⟨-, -, -, m, -, hr, -⟩ := h
  rcases hr.cases_tail with rfl | ⟨_, -, _, _, -, -, m', -, rfl⟩
  exacts [⟨m, rfl⟩, ⟨m', rfl⟩]

theorem lastNode_hex {nodes : List StoredNode} {f : String} {sn : StoredNode}
    (h : lastNode nodes f = some sn) : ∃ m : Bits256, f = m.toHex := by
  have hsn := List.find?_some h
  obtain ⟨m, -, rfl⟩ := Option.map_eq_some'.1 (of_decide_eq_true hsn)
  exact ⟨m, rfl⟩

/-- A run never deletes an account's interfaces and never writes a node over
them: after `EXEC` each account's field holds the interfaces the run recorded
last for it, or what it held before. -/
theorem startUp_account_field {ext : InsertExt} {store : Redis V} {traceId : Bits256} {t : TraceTree}
    {cmds : List (RedisCmd V)} (h : (startUp ext codec store traceId t).run = some (.ok cmds)) :
    ∃ pairs, ext.parseNodes t.nodes = .ok pairs ∧ ∀ a : StdAddress,
      ((store.exec cmds).hashes traceId.toHex).get a.toRaw =
        ((lastInterfaces (accountInterfaces pairs) a.toRaw).map codec.packInterfaces).or
          ((store.hashes traceId.toHex).get a.toRaw) := by
  obtain ⟨pairs, hp, he⟩ := startUp_effect h
  refine ⟨pairs, hp, fun a => ?_⟩
  cases hl : lastInterfaces (accountInterfaces pairs) a.toRaw with
  | some ifs => simp [he.account_field _ _ hl]
  | none =>
    have hn : lastNode (pairs.map (·.2)) a.toRaw = none := by
      cases hn : lastNode (pairs.map (·.2)) a.toRaw with
      | none => rfl
      | some sn => obtain ⟨m, hm⟩ := lastNode_hex hn; exact absurd hm.symm (toHex_ne_toRaw m a)
    have hd : ¬ DeletedKey codec (store.hashes traceId.toHex) (pairs.map (·.2)) a.toRaw := fun hd => by
      obtain ⟨m, hm⟩ := deletedKey_hex hd
      exact toHex_ne_toRaw m a hm.symm
    simp [he.kept_field _ hl hn hd]

end Accounts

end TaskResultInserter

theorem sampleInsert_account_fields :
    (TaskResultInserter.startUp TaskResultInserter.sampleInsertExt hashCodec Redis.empty
        TaskResultInserter.sampleTraceId (TaskResultInserter.sampleTrees .a)).run = some (.ok sampleInsertCommands) ∧
    ∃ pairs, TaskResultInserter.sampleInsertExt.parseNodes (TaskResultInserter.sampleTrees .a).nodes = .ok pairs ∧
      ∀ a : StdAddress,
        ((Redis.empty.exec sampleInsertCommands).hashes TaskResultInserter.sampleTraceId.toHex).get a.toRaw =
          ((TaskResultInserter.lastInterfaces (TaskResultInserter.accountInterfaces pairs) a.toRaw).map
            hashCodec.packInterfaces).or ((Redis.empty.hashes TaskResultInserter.sampleTraceId.toHex).get a.toRaw) :=
  have h : (TaskResultInserter.startUp TaskResultInserter.sampleInsertExt hashCodec Redis.empty
      TaskResultInserter.sampleTraceId (TaskResultInserter.sampleTrees .a)).run =
      some (.ok sampleInsertCommands) := rfl
  ⟨h, TaskResultInserter.startUp_account_field h⟩

end TonIndex
