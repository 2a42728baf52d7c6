import TonIndex.Emulator.Process
import Mathlib.Data.List.Forall2
import Mathlib.Algebra.Group.Nat.Basic

set_option autoImplicit false

namespace TonIndex

/-- A dictionary `HashmapE n X` of the block: its bindings, keys increasing. -/
structure Dict (V : Type) where
  entries : List (Nat × V)
  sorted : entries.Pairwise fun a b => a.1 < b.1

namespace Dict

variable {V : Type}

/-- `lookup_nearest_key(key, n, fetch_next = true, allow_eq)`: the binding with
the least key above `key`, or at `key` when `allowEq`. -/
def lookupNearestKey (d : Dict V) (key : Nat) (allowEq : Bool) : Option (Nat × V) :=
  d.entries.find? fun e => if allowEq then key ≤ e.1 else key < e.1

def lookup (d : Dict V) (key : Nat) : Option V := (d.entries.find? (·.1 = key)).map (·.2)

end Dict

def Bits256.ofNat (n : Nat) : Bits256 :=
  ⟨(List.range 32).map fun i => UInt8.ofNat (n / 256 ^ (31 - i)), by simp⟩

structure MsgCell where
  hash : Bits256
  extIn : Bool

/-- What the parser reads of a `Transaction` record: `lt`, whether
`description` unpacks as `trans_ord`, `r1.in_msg`, `outmsg_cnt`, and
`r1.out_msgs` by 15-bit index. -/
structure TransactionRecord where
  lt : Nat
  ordinary : Bool
  inMsg : Option MsgCell
  outmsgCnt : Nat
  outMsgs : Dict OutMsgInfo

structure TransactionCell where
  hash : Bits256
  record : Option TransactionRecord

structure AccountBlock where
  accountAddr : Nat
  transactions : Dict TransactionCell

/-- What `start_up` reads of a block: its workchain and, when `Block`,
`BlockInfo` and `BlockExtra` unpack, its `AccountBlocks`; a value is `none` when
it does not unpack as an `AccountBlock`. -/
structure BlockData where
  workchain : Int
  accountBlocks : Option (Dict (Option AccountBlock))

/-- How `start_up` ends before `set_value`: `promise_.set_error`, or the
dereference of the null `Ref` that `lookup_ref` returns for a missing
out-message, which aborts. -/
inductive ParseStop
  | error (e : Status)
  | nullRef

namespace BlockParser

def outMsgList (t : TransactionRecord) : Option (List OutMsgInfo) :=
  (List.range t.outmsgCnt).mapM t.outMsgs.lookup

def transactionInfo (wc : Int) (addr : Nat) (tc : TransactionCell) (t : TransactionRecord)
    (msg : MsgCell) (outs : List OutMsgInfo) : TransactionInfo :=
  ⟨⟨wc, Bits256.ofNat addr⟩, tc.hash, t.lt, msg.hash, msg.extIn, outs, none⟩

def unpackError : ParseStop := .error ⟨.plain, "Failed to unpack Transaction"⟩

def transStep (wc : Int) (addr : Nat) (res : List TransactionInfo) (tc : TransactionCell) :
    Except ParseStop (List TransactionInfo) :=
  match tc.record with
  | none => .error unpackError
  | some t =>
    if t.ordinary then
      match t.inMsg with
      | none => .ok res
      | some msg =>
        match outMsgList t with
        | none => .error .nullRef
        | some outs => .ok (res ++ [transactionInfo wc addr tc t msg outs])
    else .ok res

/-- The inner `while (true)` over the transactions of account `addr`, from the
cursor `cur`. -/
def transWalk (wc : Int) (addr : Nat) (d : Dict TransactionCell) :
    Nat → Nat → List TransactionInfo → ExceptT ParseStop Option (List TransactionInfo)
  | 0, _, _ => ExceptT.lift none
  | fuel + 1, cur, res =>
    match d.lookupNearestKey cur false with
    | none => pure res
    | some (k, tc) =>
      match transStep wc addr res tc with
      | .error e => throw e
      | .ok res => transWalk wc addr d fuel k res

def invalidAccountBlock (addr : Nat) : Status :=
  ⟨.plain, "invalid AccountBlock for account " ++ (Bits256.ofNat addr).toHex⟩

/-- The outer `while (!eof)` over `AccountBlocks`, from the cursor `cur`. Each
account's walk starts at lt `0`. -/
def accountWalk (wc : Int) (d : Dict (Option AccountBlock)) :
    Nat → Nat → Bool → List TransactionInfo → ExceptT ParseStop Option (List TransactionInfo)
  | 0, _, _, _ => ExceptT.lift none
  | fuel + 1, cur, allowSame, res =>
    match d.lookupNearestKey cur allowSame with
    | none => pure res
    | some (k, some ab) =>
      if ab.accountAddr = k then do
        let res ← transWalk wc k ab.transactions (ab.transactions.entries.length + 1) 0 res
        accountWalk wc d fuel k false res
      else throw (.error (invalidAccountBlock k))
    | some (k, none) => throw (.error (invalidAccountBlock k))

/-- `BlockParser::start_up`: the transactions it gives `promise_.set_value`,
or how it stops; `none` is a walk that does not end. -/
def startUp (b : BlockData) : ExceptT ParseStop Option (List TransactionInfo) :=
  match b.accountBlocks with
  | none => throw (.error ⟨.plain, "block data info extra unpack failed"⟩)
  | some d => accountWalk b.workchain d (d.entries.length + 1) 0 true []

end BlockParser

namespace Dict

variable {V : Type}

def above (d : Dict V) (key : Nat) (allowEq : Bool) : List (Nat × V) :=
  d.entries.filter fun e => if allowEq then key ≤ e.1 else key < e.1

theorem filter_of_find? {q : Nat → Bool} (hq : ∀ a b, q a = true → a < b → q b = true)
    {e : Nat × V} : ∀ {l : List (Nat × V)}, l.Pairwise (fun a b => a.1 < b.1) →
      l.find? (fun x => q x.1) = some e → l.filter (fun x => q x.1) = e :: l.filter (fun x => e.1 < x.1)
  | [], _, h => by cases h
  | x :: xs, hs, h => by
    rw [List.pairwise_cons] at hs
    by_cases hx : q x.1 = true
    · simp only [List.find?_cons, hx, Option.some.injEq] at h
      subst h
      have h1 : xs.filter (fun y => q y.1) = xs := List.filter_eq_self.2 fun y hy => hq _ _ hx (hs.1 y hy)
      have h2 : xs.filter (fun y => decide (x.1 < y.1)) = xs :=
        List.filter_eq_self.2 fun y hy => decide_eq_true (hs.1 y hy)
      simp [List.filter_cons, hx, h1, h2]
    · simp only [List.find?_cons, Bool.not_eq_true] at hx h
      rw [hx] at h
      have hlt : x.1 < e.1 := hs.1 e (List.mem_of_find?_eq_some h)
      simp [List.filter_cons, hx, filter_of_find? hq hs.2 h, Nat.not_lt.2 hlt.le]

theorem above_of_lookup {d : Dict V} {key : Nat} {allowEq : Bool} {e : Nat × V}
    (h : d.lookupNearestKey key allowEq = some e) : d.above key allowEq = e :: d.above e.1 false := by
  cases allowEq
  · exact @filter_of_find? V (fun k => decide (key < k)) (fun _ _ ha hab => by simp at ha ⊢; omega) e _
      d.sorted h
  · exact @filter_of_find? V (fun k => decide (key ≤ k)) (fun _ _ ha hab => by simp at ha ⊢; omega) e _
      d.sorted h

theorem above_of_lookup_none {d : Dict V} {key : Nat} {allowEq : Bool}
    (h : d.lookupNearestKey key allowEq = none) : d.above key allowEq = [] := by
  rw [lookupNearestKey, List.find?_eq_none] at h
  exact List.filter_eq_nil_iff.2 h

end Dict

namespace BlockParser

theorem transWalk_run (wc : Int) (addr : Nat) (d : Dict TransactionCell) :
    ∀ (fuel cur : Nat) (res : List TransactionInfo), (d.above cur false).length < fuel →
      (transWalk wc addr d fuel cur res).run =
        some ((d.above cur false).foldlM (fun r e => transStep wc addr r e.2) res)
  | 0, _, _, h => absurd h (Nat.not_lt_zero _)
  | fuel + 1, cur, res, h => by
    unfold transWalk
    cases hk : d.lookupNearestKey cur false with
    | none => simp [Dict.above_of_lookup_none hk]; rfl
    | some e =>
      obtain ⟨k, tc⟩ := e
      have ha := Dict.above_of_lookup hk
      rw [ha] at h ⊢
      simp only [List.length_cons] at h
      cases hs : transStep wc addr res tc with
      | error s => simp [hs]; rfl
      | ok r => simp [hs, transWalk_run wc addr d fuel k r (by omega)]; rfl

def accountStep (wc : Int) (res : List TransactionInfo) (a : Nat × Option AccountBlock) :
    Except ParseStop (List TransactionInfo) :=
  match a.2 with
  | some ab =>
    if ab.accountAddr = a.1 then
      (ab.transactions.above 0 false).foldlM (fun r e => transStep wc a.1 r e.2) res
    else .error (.error (invalidAccountBlock a.1))
  | none => .error (.error (invalidAccountBlock a.1))

theorem accountWalk_run (wc : Int) (d : Dict (Option AccountBlock)) :
    ∀ (fuel cur : Nat) (allowSame : Bool) (res : List TransactionInfo),
      (d.above cur allowSame).length < fuel →
      (accountWalk wc d fuel cur allowSame res).run =
        some ((d.above cur allowSame).foldlM (accountStep wc) res)
  | 0, _, _, _, h => absurd h (Nat.not_lt_zero _)
  | fuel + 1, cur, allowSame, res, h => by
    unfold accountWalk
    cases hk : d.lookupNearestKey cur allowSame with
    | none => simp [Dict.above_of_lookup_none hk]; rfl
    | some e =>
      obtain ⟨k, _ | ab⟩ := e
      · rw [Dict.above_of_lookup hk]; simp [accountStep]; rfl
      · have ha := Dict.above_of_lookup hk
        rw [ha] at h ⊢
        simp only [List.length_cons] at h
        by_cases hab : ab.accountAddr = k
        · have hin := transWalk_run wc k ab.transactions (ab.transactions.entries.length + 1) 0 res
            (Nat.lt_succ_of_le (List.length_filter_le _ _))
          cases hs : (ab.transactions.above 0 false).foldlM (fun r e => transStep wc k r e.2) res with
          | error s => simp [hab, hin, hs, accountStep, ExceptT.run_bind]; rfl
          | ok r => simp [hab, hin, hs, accountStep, ExceptT.run_bind, accountWalk_run wc d fuel k false r (by omega)]; rfl
        · simp [hab, accountStep]; rfl

theorem startUp_run (b : BlockData) :
    (startUp b).run = some (match b.accountBlocks with
      | none => .error (.error ⟨.plain, "block data info extra unpack failed"⟩)
      | some d => d.entries.foldlM (accountStep b.workchain) []) := by
  unfold startUp
  cases b.accountBlocks with
  | none => rfl
  | some d =>
    have hall : d.above 0 true = d.entries := List.filter_eq_self.2 fun _ _ => by simp
    simp only [accountWalk_run b.workchain d _ 0 true [] (Nat.lt_succ_of_le (List.length_filter_le _ _)),
      hall]

def emitted (wc : Int) (addr : Nat) (tc : TransactionCell) : Option TransactionInfo :=
  match tc.record with
  | some t =>
    if t.ordinary then
      match t.inMsg, outMsgList t with
      | some msg, some outs => some (transactionInfo wc addr tc t msg outs)
      | _, _ => none
    else none
  | none => none

/-- The parser reads the cell to the end: it unpacks, and when it is ordinary
with an in-message it has an out-message at every index below `outmsg_cnt`. -/
def Readable (tc : TransactionCell) : Prop :=
  tc.record.isSome ∧ ∀ t ∈ tc.record,
    t.ordinary = true → t.inMsg.isSome → ∀ x < t.outmsgCnt, (t.outMsgs.lookup x).isSome

instance (tc : TransactionCell) : Decidable (Readable tc) :=
  inferInstanceAs (Decidable (tc.record.isSome ∧ ∀ t ∈ tc.record,
    t.ordinary = true → t.inMsg.isSome → ∀ x < t.outmsgCnt, (t.outMsgs.lookup x).isSome))

theorem mapM_isSome_iff {α β : Type} (f : α → Option β) :
    ∀ l : List α, (l.mapM f).isSome ↔ ∀ x ∈ l, (f x).isSome
  | [] => by simp only [List.mapM_nil]; simp
  | a :: l => by
    rw [List.mapM_cons, List.forall_mem_cons, ← mapM_isSome_iff f l]
    cases f a <;> cases l.mapM f <;> simp

theorem outMsgList_isSome_iff (t : TransactionRecord) :
    (outMsgList t).isSome ↔ ∀ x < t.outmsgCnt, (t.outMsgs.lookup x).isSome := by
  rw [outMsgList, mapM_isSome_iff]
  simp

theorem transStep_readable {wc : Int} {addr : Nat} {r r' : List TransactionInfo}
    {tc : TransactionCell} (h : transStep wc addr r tc = .ok r') : Readable tc := by
  unfold transStep at h
  split at h
  · cases h
  · rename_i t ht
    refine ⟨by simp [ht], fun t' ht' ho hi => (outMsgList_isSome_iff _).1 ?_⟩
    cases Option.mem_def.1 ht' ▸ ht
    simp only [ho, if_true] at h
    obtain ⟨msg, hm⟩ := Option.isSome_iff_exists.1 hi
    simp only [hm] at h
    split at h
    · cases h
    · simp [*]

theorem transStep_of_readable (wc : Int) (addr : Nat) (r : List TransactionInfo)
    {tc : TransactionCell} (h : Readable tc) :
    transStep wc addr r tc = .ok (r ++ (emitted wc addr tc).toList) := by
  obtain ⟨t, ht⟩ := Option.isSome_iff_exists.1 h.1
  have hout := h.2 t ht
  unfold transStep emitted
  rw [ht]
  cases ho : t.ordinary
  · simp [ho]
  · cases hm : t.inMsg with
    | none => simp [ho, hm]
    | some msg =>
      obtain ⟨outs, hs⟩ := Option.isSome_iff_exists.1
        ((outMsgList_isSome_iff t).2 (hout ho (by simp [hm])))
      simp [ho, hm, hs]

theorem transSteps_of_readable (wc : Int) (addr : Nat) :
    ∀ (l : List (Nat × TransactionCell)) (r : List TransactionInfo), (∀ e ∈ l, Readable e.2) →
      l.foldlM (fun r e => transStep wc addr r e.2) r =
        .ok (r ++ l.filterMap fun e => emitted wc addr e.2)
  | [], r, _ => by simp; rfl
  | e :: l, r, h => by
    simp only [List.foldlM_cons, transStep_of_readable wc addr r (h e (List.mem_cons_self _ _)),
      bind, Except.bind, transSteps_of_readable wc addr l _ fun e' he' => h e' (List.mem_cons_of_mem _ he')]
    cases he : emitted wc addr e.2 <;> simp [List.filterMap_cons, he]

theorem transSteps_readable {wc : Int} {addr : Nat} :
    ∀ {l : List (Nat × TransactionCell)} {r r' : List TransactionInfo},
      l.foldlM (fun r e => transStep wc addr r e.2) r = .ok r' → ∀ e ∈ l, Readable e.2
  | [], _, _, _ => by simp
  | e :: l, r, r', h => by
    rw [List.foldlM_cons] at h
    cases hs : transStep wc addr r e.2 with
    | error s => rw [hs] at h; cases h
    | ok r1 =>
      rw [hs] at h
      intro x hx
      rcases List.mem_cons.1 hx with rfl | hx
      · exact transStep_readable hs
      · exact transSteps_readable h x hx

/-- A block's `account_blocks` as the validator writes it: every value unpacks
as an `AccountBlock` whose `account_addr` is its key, and every lt is positive. -/
structure AccountBlocksWellFormed (d : Dict (Option AccountBlock)) : Prop where
  addr : ∀ a ∈ d.entries, a.2.map (·.accountAddr) = some a.1
  lt_pos : ∀ a ∈ d.entries, ∀ ab ∈ a.2, ∀ t ∈ ab.transactions.entries, 0 < t.1

def TransactionsReadable (d : Dict (Option AccountBlock)) : Prop :=
  ∀ a ∈ d.entries, ∀ ab ∈ a.2, ∀ t ∈ ab.transactions.entries, Readable t.2

instance (d : Dict (Option AccountBlock)) : Decidable (TransactionsReadable d) :=
  inferInstanceAs (Decidable (∀ a ∈ d.entries, ∀ ab ∈ a.2, ∀ t ∈ ab.transactions.entries, Readable t.2))

def accountEntries (wc : Int) (a : Nat × Option AccountBlock) : List (Nat × Nat × TransactionInfo) :=
  match a.2 with
  | none => []
  | some ab => ab.transactions.entries.filterMap fun t =>
      (emitted wc a.1 t.2).map fun info => (a.1, t.1, info)

def blockTransactions (wc : Int) (d : Dict (Option AccountBlock)) : List (Nat × Nat × TransactionInfo) :=
  d.entries.flatMap (accountEntries wc)

theorem accountEntries_map (wc : Int) (k : Nat) (ab : AccountBlock) :
    (accountEntries wc (k, some ab)).map (·.2.2) =
      ab.transactions.entries.filterMap fun t => emitted wc k t.2 := by
  simp [accountEntries, List.map_filterMap, Function.comp_def]

theorem fst_of_mem_accountEntries {wc : Int} {a : Nat × Option AccountBlock}
    {x : Nat × Nat × TransactionInfo} (h : x ∈ accountEntries wc a) : x.1 = a.1 := by
  obtain ⟨k, _ | ab⟩ := a
  · cases h
  · obtain ⟨t, -, ht⟩ := List.mem_filterMap.1 h
    obtain ⟨info, -, rfl⟩ := Option.map_eq_some'.1 ht
    rfl

theorem above_zero {d : Dict TransactionCell} (h : ∀ t ∈ d.entries, 0 < t.1) :
    d.above 0 false = d.entries :=
  List.filter_eq_self.2 fun t ht => by simpa using h t ht

theorem flatMap_accountEntries (wc : Int) (d : Dict (Option AccountBlock)) :
    d.entries.flatMap (fun a => (accountEntries wc a).map (·.2.2)) =
      (blockTransactions wc d).map (·.2.2) := by
  rw [blockTransactions, List.map_flatMap]

theorem accountSteps_of_readable (wc : Int) :
    ∀ (l : List (Nat × Option AccountBlock)) (r : List TransactionInfo),
      (∀ a ∈ l, ∃ ab, a.2 = some ab ∧ ab.accountAddr = a.1 ∧
        ∀ t ∈ ab.transactions.entries, 0 < t.1 ∧ Readable t.2) →
      l.foldlM (accountStep wc) r = .ok (r ++ l.flatMap fun a => (accountEntries wc a).map (·.2.2))
  | [], r, _ => by simp; rfl
  | a :: l, r, h => by
    obtain ⟨ab, hab, haddr, ht⟩ := h a (List.mem_cons_self _ _)
    have hstep : accountStep wc r a = .ok (r ++ (accountEntries wc a).map (·.2.2)) := by
      obtain ⟨k, b⟩ := a
      cases hab
      simp only [accountStep, haddr, if_true, above_zero fun t h => (ht t h).1,
        transSteps_of_readable wc k _ r fun t h => (ht t h).2, accountEntries_map]
    simp only [List.foldlM_cons, hstep, bind, Except.bind,
      accountSteps_of_readable wc l _ fun a' h' => h a' (List.mem_cons_of_mem _ h'),
      List.flatMap_cons, List.append_assoc]

theorem accountSteps_readable {wc : Int} :
    ∀ {l : List (Nat × Option AccountBlock)} {r r' : List TransactionInfo},
      l.foldlM (accountStep wc) r = .ok r' →
        ∀ a ∈ l, ∀ ab ∈ a.2, ∀ t ∈ ab.transactions.entries, 0 < t.1 → Readable t.2
  | [], _, _, _ => by simp
  | a :: l, r, r', h => by
    rw [List.foldlM_cons] at h
    cases hs : accountStep wc r a with
    | error s => rw [hs] at h; cases h
    | ok r1 =>
      rw [hs] at h
      intro x hx ab hab t ht hpos
      rcases List.mem_cons.1 hx with rfl | hx
      · simp only [accountStep, Option.mem_def.1 hab] at hs
        split at hs
        · exact transSteps_readable hs t (List.mem_filter.2 ⟨ht, by simpa using hpos⟩)
        · cases hs
      · exact accountSteps_readable h x hx ab hab t ht hpos

theorem transStep_error {wc : Int} {addr : Nat} {r : List TransactionInfo} {tc : TransactionCell}
    {e : ParseStop} (h : transStep wc addr r tc = .error e) : e = unpackError ∨ e = .nullRef := by
  unfold transStep at h
  repeat' split at h
  all_goals first | cases h; done | (cases h; exact .inl rfl) | (cases h; exact .inr rfl)

theorem transSteps_error {wc : Int} {addr : Nat} {e : ParseStop} :
    ∀ {l : List (Nat × TransactionCell)} {r : List TransactionInfo},
      l.foldlM (fun r e => transStep wc addr r e.2) r = .error e → e = unpackError ∨ e = .nullRef
  | [], _, h => by cases h
  | t :: l, r, h => by
    rw [List.foldlM_cons] at h
    cases hs : transStep wc addr r t.2 with
    | error s => rw [hs] at h; cases h; exact transStep_error hs
    | ok r1 => rw [hs] at h; exact transSteps_error h

theorem accountSteps_error {wc : Int} {e : ParseStop} :
    ∀ {l : List (Nat × Option AccountBlock)} {r : List TransactionInfo},
      (∀ a ∈ l, a.2.map (·.accountAddr) = some a.1) →
      l.foldlM (accountStep wc) r = .error e → e = unpackError ∨ e = .nullRef
  | [], _, _, h => by cases h
  | a :: l, r, ha, h => by
    rw [List.foldlM_cons] at h
    obtain ⟨ab, hab, haddr⟩ := Option.map_eq_some'.1 (ha a (List.mem_cons_self _ _))
    cases hs : accountStep wc r a with
    | error s =>
      rw [hs] at h; cases h
      simp only [accountStep, hab, haddr, if_true] at hs
      exact transSteps_error hs
    | ok r1 => rw [hs] at h; exact accountSteps_error (fun a' h' => ha a' (List.mem_cons_of_mem _ h')) h

theorem mapM_eq_some_iff {α β : Type} (f : α → Option β) :
    ∀ (l : List α) (ys : List β), l.mapM f = some ys ↔ List.Forall₂ (fun a b => f a = some b) l ys
  | [], ys => by rw [List.mapM_nil]; cases ys <;> simp
  | a :: l, [] => by rw [List.mapM_cons]; cases f a <;> cases l.mapM f <;> simp
  | a :: l, y :: ys => by
    rw [List.mapM_cons, List.forall₂_cons, ← mapM_eq_some_iff f l ys]
    cases f a <;> cases l.mapM f <;> simp

theorem outMsgList_eq_some {t : TransactionRecord} {outs : List OutMsgInfo} :
    outMsgList t = some outs ↔ outs.length = t.outmsgCnt ∧
      ∀ i (h : i < outs.length), t.outMsgs.lookup i = some outs[i] := by
  rw [outMsgList, mapM_eq_some_iff, List.forall₂_iff_get]
  simp only [List.length_range, List.get_eq_getElem, List.getElem_range]
  constructor
  · rintro ⟨hl, h⟩
    exact ⟨hl.symm, fun i hi => h i (hl ▸ hi) hi⟩
  · rintro ⟨hl, h⟩
    exact ⟨hl.symm, fun i _ hi => h i hi⟩

theorem emitted_eq_some {wc : Int} {addr : Nat} {tc : TransactionCell} {info : TransactionInfo} :
    emitted wc addr tc = some info ↔ ∃ t msg outs, tc.record = some t ∧ t.ordinary = true ∧
      t.inMsg = some msg ∧ outMsgList t = some outs ∧ info = transactionInfo wc addr tc t msg outs := by
  unfold emitted
  constructor
  · intro h
    split at h
    · rename_i t ht
      split at h
      · split at h
        · cases h; exact ⟨t, _, _, ht, ‹_›, ‹_›, ‹_›, rfl⟩
        · cases h
      · cases h
    · cases h
  · rintro ⟨t, msg, outs, ht, ho, hm, hs, rfl⟩
    simp [ht, ho, hm, hs]

theorem blockTransactions_sorted (wc : Int) (d : Dict (Option AccountBlock)) :
    (blockTransactions wc d).Pairwise fun x y => x.1 < y.1 ∨ x.1 = y.1 ∧ x.2.1 < y.2.1 := by
  rw [blockTransactions, List.pairwise_flatMap]
  refine ⟨fun a _ => ?_, d.sorted.imp fun hab x hx y hy => .inl ?_⟩
  · obtain ⟨k, _ | ab⟩ := a
    · exact List.Pairwise.nil
    · refine ab.transactions.sorted.filterMap _ fun t t' htt' x hx y hy => ?_
      obtain ⟨_, -, rfl⟩ := Option.map_eq_some'.1 hx
      obtain ⟨_, -, rfl⟩ := Option.map_eq_some'.1 hy
      exact .inr ⟨rfl, htt'⟩
  · rw [fst_of_mem_accountEntries hx, fst_of_mem_accountEntries hy]
    exact hab

theorem mem_blockTransactions {wc : Int} {d : Dict (Option AccountBlock)} {addr lt : Nat}
    {info : TransactionInfo} :
    (addr, lt, info) ∈ blockTransactions wc d ↔ ∃ ab tc, (addr, some ab) ∈ d.entries ∧
      (lt, tc) ∈ ab.transactions.entries ∧ emitted wc addr tc = some info := by
  simp only [blockTransactions, List.mem_flatMap]
  constructor
  · rintro ⟨⟨k, _ | ab⟩, ha, hx⟩
    · cases hx
    · obtain ⟨⟨l, tc⟩, ht, he⟩ := List.mem_filterMap.1 hx
      obtain ⟨info', he, h⟩ := Option.map_eq_some'.1 he
      cases h
      exact ⟨ab, tc, ha, ht, he⟩
  · rintro ⟨ab, tc, ha, ht, he⟩
    exact ⟨_, ha, List.mem_filterMap.2 ⟨_, ht, by simp [he]⟩⟩

/-- `start_up` ends on every block. On a well-formed `AccountBlocks` it hands the
promise a list exactly when every transaction cell is read to the end, and the list is
every ordinary transaction with an in-message, once each, by account key then lt key,
with its out-messages in index order. -/
theorem startUp_emits_inbound_ordinary :
    (∀ b, (startUp b).run ≠ none) ∧
    (∀ b d, b.accountBlocks = some d → AccountBlocksWellFormed d →
      ((startUp b).run = some (.ok ((blockTransactions b.workchain d).map (·.2.2))) ↔
        TransactionsReadable d) ∧
      ∀ e, (startUp b).run = some (.error e) → e = unpackError ∨ e = .nullRef) ∧
    (∀ wc d, (blockTransactions wc d).Pairwise fun x y => x.1 < y.1 ∨ x.1 = y.1 ∧ x.2.1 < y.2.1) ∧
    (∀ wc d addr lt info, (addr, lt, info) ∈ blockTransactions wc d ↔
      ∃ ab tc t msg outs, (addr, some ab) ∈ d.entries ∧ (lt, tc) ∈ ab.transactions.entries ∧
        tc.record = some t ∧ t.ordinary = true ∧ t.inMsg = some msg ∧
        outs.length = t.outmsgCnt ∧ (∀ i (h : i < outs.length), t.outMsgs.lookup i = some outs[i]) ∧
        info = { account := ⟨wc, Bits256.ofNat addr⟩, hash := tc.hash, lt := t.lt,
                 inMsgHash := msg.hash, isFirst := msg.extIn, outMsgs := outs,
                 initialMsgHash := none }) := by
  refine ⟨fun b => by simp [startUp_run], fun b d hb hwf => ?_, blockTransactions_sorted,
    fun wc d addr lt info => ?_⟩
  · rw [startUp_run, hb]
    simp only [Option.some.injEq]
    refine ⟨⟨fun h a ha ab hab t ht => ?_, fun hr => ?_⟩, fun e h => accountSteps_error hwf.addr h⟩
    · exact accountSteps_readable h a ha ab hab t ht (hwf.lt_pos a ha ab hab t ht)
    · rw [accountSteps_of_readable _ _ _ fun a ha => ?_, List.nil_append, flatMap_accountEntries]
      obtain ⟨ab, hab, haddr⟩ := Option.map_eq_some'.1 (hwf.addr a ha)
      exact ⟨ab, hab, haddr, fun t ht => ⟨hwf.lt_pos a ha ab hab t ht, hr a ha ab hab t ht⟩⟩
  · simp only [mem_blockTransactions, emitted_eq_some, outMsgList_eq_some]
    constructor
    · rintro ⟨ab, tc, ha, ht, t, msg, outs, h1, h2, h3, ⟨h4, h5⟩, rfl⟩
      exact ⟨ab, tc, t, msg, outs, ha, ht, h1, h2, h3, h4, h5, rfl⟩
    · rintro ⟨ab, tc, t, msg, outs, ha, ht, h1, h2, h3, h4, h5, rfl⟩
      exact ⟨ab, tc, ha, ht, t, msg, outs, h1, h2, h3, ⟨h4, h5⟩, rfl⟩

/-- A block of two accounts: account 5 has an ordinary transaction with an
external in-message and one out-message, then a transaction that is not
ordinary; account 9 has an ordinary transaction without an in-message. -/
def sampleAccountBlocks : Dict (Option AccountBlock) :=
  ⟨[(5, some ⟨5, ⟨[(1, ⟨Bits256.ofByte 211, some ⟨1, true, some ⟨Bits256.ofByte 221, true⟩, 1,
        ⟨[(0, ⟨Bits256.ofByte 231, false, some ⟨0, Bits256.ofByte 232⟩⟩)], by decide⟩⟩⟩),
      (2, ⟨Bits256.ofByte 212, some ⟨2, false, none, 0, ⟨[], by decide⟩⟩⟩)], by decide⟩⟩),
    (9, some ⟨9, ⟨[(3, ⟨Bits256.ofByte 213, some ⟨3, true, none, 0, ⟨[], by decide⟩⟩⟩)], by decide⟩⟩)],
    by decide⟩

def sampleBlock : BlockData := ⟨0, some sampleAccountBlocks⟩

theorem sampleBlock_emits :
    AccountBlocksWellFormed sampleAccountBlocks ∧ TransactionsReadable sampleAccountBlocks ∧
      (startUp sampleBlock).run =
        some (.ok ((blockTransactions 0 sampleAccountBlocks).map (·.2.2))) :=
  have hwf : AccountBlocksWellFormed sampleAccountBlocks := ⟨by decide, by decide⟩
  have hr : TransactionsReadable sampleAccountBlocks := by decide
  ⟨hwf, hr, ((startUp_emits_inbound_ordinary.2.1 sampleBlock sampleAccountBlocks rfl hwf).1).2 hr⟩

def truncatedAccountBlocks : Dict (Option AccountBlock) :=
  ⟨[(5, some ⟨5, ⟨[(1, ⟨Bits256.ofByte 214, some ⟨1, true, some ⟨Bits256.ofByte 224, false⟩, 1,
      ⟨[], by decide⟩⟩⟩)], by decide⟩⟩)], by decide⟩

theorem truncated_block_aborts :
    AccountBlocksWellFormed truncatedAccountBlocks ∧
      (startUp ⟨0, some truncatedAccountBlocks⟩).run = some (.error .nullRef) :=
  ⟨⟨by decide, by decide⟩, by rw [startUp_run]; rfl⟩

example : (blockTransactions 0 sampleAccountBlocks).map (fun x => (x.1, x.2.1)) = [(5, 1)] := by
  decide

end BlockParser

end TonIndex
