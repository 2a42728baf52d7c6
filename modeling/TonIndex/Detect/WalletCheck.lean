import TonIndex.Detect.JettonSystem
import TonIndex.Detect.Events
import Mathlib.Logic.Relation

set_option autoImplicit false

namespace TonIndex

/-- The answer `rec` accepts wallet `w`: it checks `w` against the master and owner
parsed from it, and the getter returned `w`'s own address or the master lookup failed
with `NOT_FOUND_ERROR`. -/
def Accepts (w : JettonWalletData) (rec : AnswerRecord) : Prop :=
  rec.data = w ∧ StdAddress.parse w.jetton = .ok rec.master ∧
    StdAddress.parse w.owner = .ok rec.owner ∧
    match rec.answer with
    | .ran _ res => ∃ a, walletAddressOf res = .ok a ∧ a.toRaw = w.address
    | .lookupFailed e => e.code = .notFoundError

def WalletAccepted (s : JettonSystem) (w : JettonWalletData) : Prop :=
  ∃ rec ∈ s.answers, Accepts w rec

def AskOk (data : JettonWalletData) (master owner : StdAddress) : Prop :=
  StdAddress.parse data.jetton = .ok master ∧ StdAddress.parse data.owner = .ok owner

structure WalletInv (s : JettonSystem) : Prop where
  cache : ∀ k w, s.wallet.cache k = some w → WalletAccepted s w
  db : ∀ k w, s.walletDb k = some w → WalletAccepted s w
  promises : ∀ rid w, s.wallet.promises rid = some (.ok w) → WalletAccepted s w
  upserts : ∀ w, .upsertWallet w ∈ s.inbox → WalletAccepted s w
  asks : ∀ data rid master owner, .getWalletAddress data rid master owner ∈ s.inbox →
    AskOk data master owner
  lookups : ∀ data rid master owner, .getMasterEntity data rid master owner ∈ s.inbox →
    AskOk data master owner

theorem walletAddressOf_error_code {res : GetterResult} {e : Status}
    (h : walletAddressOf res = .error e) : e.code ≠ .notFoundError := by
  unfold walletAddressOf at h
  split at h
  · cases h; decide
  · split at h
    · split at h
      · cases h; rw [Slice.toRawAddress_error_code ‹_›]; decide
      · rw [StdAddress.parse_error_code h]; decide
    · cases h; decide

theorem verifyReply_accept {rec : AnswerRecord} {key : StdAddress}
    (hask : AskOk rec.data rec.master rec.owner)
    (h : verifyReply rec.data rec.answer.reply = .accept key) : Accepts rec.data rec := by
  refine ⟨rfl, hask.1, hask.2, ?_⟩
  cases hans : rec.answer with
  | ran m res =>
    rw [hans] at h
    cases hr : walletAddressOf res with
    | error e =>
      simp only [MasterAnswer.reply,hr,verifyReply,walletAddressOf_error_code hr,
        if_false] at h
      cases h
    | ok a =>
      simp only [MasterAnswer.reply,hr,verifyReply] at h
      split at h
      · cases h
      · rename_i heq
        exact ⟨a, hr, not_not.mp heq⟩
  | lookupFailed e =>
    rw [hans] at h
    simp only [MasterAnswer.reply,verifyReply] at h
    split at h
    · assumption
    · cases h

theorem WalletAccepted.mono {s s' : JettonSystem} {w : JettonWalletData}
    (h : WalletAccepted s w) (hs : ∀ rec ∈ s.answers, rec ∈ s'.answers) : WalletAccepted s' w :=
  let ⟨rec, hm, ha⟩ := h
  ⟨rec, hs rec hm, ha⟩

theorem Promises.set_eq_some {α : Type} {p : Promises α} {rid rid' : Nat} {v x : Except Status α}
    (h : p.set rid v rid' = some x) : p rid' = some x ∨ (rid' = rid ∧ x = v) := by
  rcases StdMap.emplace_eq_some h with h | ⟨h₁,-,h₂⟩
  · exact .inl h
  · exact .inr ⟨h₁, h₂⟩

theorem frontStep_promises {T : Type} [CachedEntity T] {gate : Request → Gate}
    {db : StdMap String T} {fails : Bool} {r : Request} {d : DetectorState T} {st : Stage}
    {rid : Nat} {x : T} (h : (frontStep gate db fails r d st).1.promises rid = some (.ok x)) :
    d.promises rid = some (.ok x) ∨ (∃ k, d.cache k = some x) ∨ ∃ k, db k = some x := by
  have reply : ∀ (d' : DetectorState T) (v : Except Status T),
      (detectContinueReply r d' v).1.promises rid = some (.ok x) →
      d'.promises rid = some (.ok x) ∨ v = .ok x := by
    intro d' v hv
    cases v with
    | error _ => exact .inl hv
    | ok c =>
      simp only [detectContinueReply] at hv
      split at hv
      · rcases Promises.set_eq_some hv with hv | ⟨-,hv⟩
        · exact .inl hv
        · exact .inr hv.symm
      · exact .inl hv
  cases st with
  | detect | detectImpl => exact .inl h
  | checkInterface =>
    simp only [frontStep] at h
    split at h
    · exact .inl h
    · rcases Promises.set_eq_some h with h | ⟨-,h⟩
      · exact .inl h
      · cases h
  | detectContinue =>
    simp only [frontStep] at h
    split at h
    · rcases reply _ _ h with h | h
      · exact .inl h
      · cases h; exact .inr (.inl ⟨_, ‹_›⟩)
    · exact .inl h
  | getEntity =>
    simp only [frontStep] at h
    split at h
    · rcases reply _ _ h with h | h
      · exact .inl h
      · cases h
        exact .inr (.inr ⟨_, getEntity_ok ‹_›⟩)
    · rcases reply _ _ h with h | h
      · exact .inl h
      · cases h

def JettonMsg.walletSide : JettonMsg → Bool
  | .upsertWallet _ | .getWalletAddress .. | .getMasterEntity .. => true
  | _ => false

section Steps

variable {s : JettonSystem}

theorem WalletInv.congr {s' : JettonSystem} (hi : WalletInv s) (hw : s'.wallet = s.wallet)
    (hdb : s'.walletDb = s.walletDb) (ha : ∀ rec ∈ s.answers, rec ∈ s'.answers)
    (hin : ∀ m ∈ s'.inbox, m.walletSide → m ∈ s.inbox) : WalletInv s' where
  cache k w h := (hi.cache k w (hw ▸ h)).mono ha
  db k w h := (hi.db k w (hdb ▸ h)).mono ha
  promises rid w h := (hi.promises rid w (hw ▸ h)).mono ha
  upserts w h := (hi.upserts w (hin _ h rfl)).mono ha
  asks data rid master owner h := hi.asks data rid master owner (hin _ h rfl)
  lookups data rid master owner h := hi.lookups data rid master owner (hin _ h rfl)

theorem WalletInv.withMaster (hi : WalletInv s) (d : DetectorState JettonMasterData) :
    WalletInv {s with master := d} :=
  hi.congr rfl rfl (fun _ h => h) fun _ h _ => h

theorem WalletInv.receive (hi : WalletInv s) (m : JettonMsg) : WalletInv (s.receive m) :=
  hi.congr rfl rfl (fun _ h => h) fun _ h _ => List.mem_of_mem_erase h

theorem WalletInv.setWallet_error (hi : WalletInv s) (rid : Nat) (e : Status) :
    WalletInv (s.setWallet rid (.error e)) where
  cache := hi.cache
  db := hi.db
  promises rid' w h := by
    rcases Promises.set_eq_some h with h | ⟨-,h⟩
    · exact hi.promises rid' w h
    · cases h
  upserts := hi.upserts
  asks := hi.asks
  lookups := hi.lookups

theorem WalletInv.verify (hi : WalletInv s) (rec : AnswerRecord)
    (hask : AskOk rec.data rec.master rec.owner) : WalletInv (s.verify rec) := by
  have hi' : WalletInv {s with answers := s.answers ++ [rec]} :=
    hi.congr rfl rfl (fun r hr => List.mem_append_left _ hr) fun _ h _ => h
  unfold JettonSystem.verify
  split
  · rename_i key hv
    have hacc : WalletAccepted {s with answers := s.answers ++ [rec]} rec.data :=
      ⟨rec, List.mem_append_right _ (List.mem_singleton_self _), verifyReply_accept hask hv⟩
    constructor
    · intro k w h
      rcases StdMap.emplace_eq_some h with h | ⟨-,-,rfl⟩
      · exact hi'.cache k w h
      · exact hacc
    · exact hi'.db
    · intro rid w h
      rcases Promises.set_eq_some h with h | ⟨-,h⟩
      · exact hi'.promises rid w h
      · cases h; exact hacc
    · intro w h
      rcases List.mem_append.1 h with h | h
      · exact hi'.upserts w h
      · simp only [List.mem_singleton, JettonMsg.upsertWallet.injEq] at h
        exact h ▸ hacc
    · intro data rid master owner h
      rcases List.mem_append.1 h with h | h
      · exact hi'.asks data rid master owner h
      · simp at h
    · intro data rid master owner h
      rcases List.mem_append.1 h with h | h
      · exact hi'.lookups data rid master owner h
      · simp at h
  · exact hi'.setWallet_error _ _
  · exact hi'.congr rfl rfl (fun _ h => h) fun _ h _ => h

theorem WalletInv.walletFront (hi : WalletInv s) (fails : Bool) (r : Request) (st : Stage) :
    WalletInv (s.walletFront fails r st) where
  cache k w h := by
    rcases frontStep_cache h with h | h
    · exact hi.cache k w h
    · exact hi.db _ w h
  db := hi.db
  promises rid w h := by
    rcases frontStep_promises h with h | ⟨k, h⟩ | ⟨k, h⟩
    · exact hi.promises rid w h
    · exact hi.cache k w h
    · exact hi.db k w h
  upserts w h := by
    rcases List.mem_append.1 h with h | h
    · exact hi.upserts w h
    · simp at h
  asks data rid master owner h := by
    rcases List.mem_append.1 h with h | h
    · exact hi.asks data rid master owner h
    · simp at h
  lookups data rid master owner h := by
    rcases List.mem_append.1 h with h | h
    · exact hi.lookups data rid master owner h
    · simp at h

theorem WalletInv.masterFront (hi : WalletInv s) (fails : Bool) (r : Request) (st : Stage) :
    WalletInv (s.masterFront fails r st) :=
  hi.congr rfl rfl (fun _ h => h) fun m h hm => by
    rcases List.mem_append.1 h with h | h
    · exact h
    · obtain ⟨_, -, rfl⟩ := List.mem_map.1 h; cases hm

theorem WalletInv.masterImplEnd (hi : WalletInv s) (r : Request) (e : ImplEnd JettonMasterData) :
    WalletInv (s.masterImplEnd r e) := by
  cases e with
  | fail e | crash e => exact hi.congr rfl rfl (fun _ h => h) fun _ h _ => h
  | done m =>
    refine hi.congr rfl rfl (fun _ h => h) fun m' h hm => ?_
    rcases List.mem_append.1 h with h | h
    · exact h
    · simp only [List.mem_singleton] at h; subst h; cases hm

theorem WalletInv.walletImplEnd (hi : WalletInv s) (r : Request) (e : ImplEnd JettonWalletData) :
    WalletInv (s.walletImplEnd r e) := by
  cases e with
  | fail e => exact hi.setWallet_error _ _
  | crash e => exact (hi.setWallet_error r.rid e).congr rfl rfl (fun _ h => h) fun _ h _ => h
  | done w =>
    simp only [JettonSystem.walletImplEnd]
    split
    · exact hi.setWallet_error _ _
    · exact hi.setWallet_error _ _
    · rename_i master owner hj ho
      refine ⟨hi.cache, hi.db, hi.promises, ?_, ?_, ?_⟩
      · intro w' h
        rcases List.mem_append.1 h with h | h
        · exact hi.upserts w' h
        · simp at h
      · intro data rid master' owner' h
        rcases List.mem_append.1 h with h | h
        · exact hi.asks data rid master' owner' h
        · simp only [List.mem_singleton, JettonMsg.getWalletAddress.injEq] at h
          obtain ⟨rfl, -, rfl, rfl⟩ := h
          exact ⟨hj, ho⟩
      · intro data rid master' owner' h
        rcases List.mem_append.1 h with h | h
        · exact hi.lookups data rid master' owner' h
        · simp at h

theorem WalletInv.step {ext : Ext} {s' : JettonSystem} (hi : WalletInv s)
    (h : JettonStep ext s s') : WalletInv s' := by
  cases h with
  | callMaster r _ | callWallet r _ =>
    exact hi.congr rfl rfl (fun _ h => h) fun m h hm => by
      rcases List.mem_append.1 h with h | h
      · exact h
      · simp only [List.mem_singleton] at h; subst h; cases hm
  | setInterface | writeMasterDb => exact hi.congr rfl rfl (fun _ h => h) fun _ h _ => h
  | upsertMaster => exact hi.congr rfl rfl (fun _ h => h) fun _ h _ => List.mem_of_mem_erase h
  | masterFront st r fails _ _ _ => exact (hi.receive _).masterFront fails r st
  | walletFront st r fails _ _ _ => exact (hi.receive _).walletFront fails r st
  | masterImpl r res u _ _ => exact (hi.receive _).masterImplEnd r _
  | walletImpl r res _ _ => exact (hi.receive _).walletImplEnd r _
  | walletAddressCached data rid master owner m res _ pending _ =>
    exact (hi.receive _).verify ⟨rid, data, master, owner, .ran m res⟩
      (hi.asks data rid master owner pending)
  | walletAddressMiss data rid master owner _ pending _ =>
    have hr := hi.receive (.getWalletAddress data rid master owner)
    refine ⟨hr.cache, hr.db, hr.promises, ?_, ?_, ?_⟩
    · intro w h
      rcases List.mem_append.1 h with h | h
      · exact hr.upserts w h
      · simp at h
    · intro d i m o h
      rcases List.mem_append.1 h with h | h
      · exact hr.asks d i m o h
      · simp at h
    · intro d i m o h
      rcases List.mem_append.1 h with h | h
      · exact hr.lookups d i m o h
      · simp only [List.mem_singleton, JettonMsg.getMasterEntity.injEq] at h
        obtain ⟨rfl, -, rfl, rfl⟩ := h
        exact hi.asks _ _ _ _ pending
  | masterEntity data rid master owner fails res _ pending =>
    have hask := hi.lookups data rid master owner pending
    have hr := hi.receive (.getMasterEntity data rid master owner)
    unfold JettonSystem.masterEntity
    split
    · exact (hr.withMaster _).verify ⟨rid, data, master, owner, _⟩ hask
    · exact hr.verify ⟨rid, data, master, owner, _⟩ hask
  | upsertWallet w _ pending =>
    have hr := hi.receive (.upsertWallet w)
    refine hr.congr rfl rfl (fun _ h => h) (fun _ h _ => h) |> fun h' => ⟨h'.cache, ?_, h'.promises,
      h'.upserts, h'.asks, h'.lookups⟩
    intro k w' hk
    by_cases hkw : k = w.address
    · subst hkw
      simp only [StdMap.assign_self, Option.some.injEq] at hk
      exact hk ▸ hi.upserts w pending
    · exact hi.db k w' (by simpa [hkw] using hk)

theorem WalletInv.restart (hi : WalletInv s) (verdicts : Verdicts) : WalletInv (s.restart verdicts) := by
  refine ⟨?_, hi.db, ?_, ?_, ?_, ?_⟩ <;> simp [JettonSystem.restart, DetectorState.empty]

/-- The invariant holds along every run from a state that has it, across restarts. -/
theorem WalletInv.run {ext : Ext} {s' : JettonSystem} (hi : WalletInv s)
    (h : Relation.ReflTransGen (JettonSystem.StepOrRestart ext) s s') : WalletInv s' := by
  induction h with
  | refl => exact hi
  | tail _ hs ih =>
    rcases hs with hs | ⟨verdicts, rfl⟩
    exacts [ih.step hs, ih.restart verdicts]

end Steps

theorem walletInv_init (verdicts : Verdicts) (masterDb : StdMap String JettonMasterData) :
    WalletInv (JettonSystem.init verdicts masterDb) := by
  constructor <;> simp [JettonSystem.init, DetectorState.empty]

theorem JettonReachable.exists_init {ext : Ext} {s : JettonSystem} (h : JettonReachable ext s) :
    ∃ verdicts masterDb, Relation.ReflTransGen (JettonStep ext) (JettonSystem.init verdicts masterDb) s := by
  induction h with
  | init verdicts masterDb => exact ⟨verdicts, masterDb, .refl⟩
  | step _ hs ih =>
    obtain ⟨verdicts, masterDb, hr⟩ := ih
    exact ⟨verdicts, masterDb, hr.tail hs⟩

theorem walletInv_reachable {ext : Ext} {s : JettonSystem} (h : JettonReachable ext s) :
    WalletInv s :=
  let ⟨verdicts, masterDb, hr⟩ := h.exists_init
  (walletInv_init verdicts masterDb).run (hr.mono fun _ _ => .inl)

@[simp] theorem JettonSystem.verify_answers (s : JettonSystem) (rec : AnswerRecord) :
    (s.verify rec).answers = s.answers ++ [rec] := by
  unfold JettonSystem.verify; split <;> rfl

def AnswerFrom (s : JettonSystem) (rec : AnswerRecord) : Prop :=
  match rec.answer with
  | .ran m _ => s.master.cache rec.master.toRaw = some m ∨ s.masterDb rec.master.toRaw = some m
  | .lookupFailed e => ∃ fails, getEntity s.masterDb fails rec.master.toRaw = .error e

theorem answers_step {ext : Ext} {s s' : JettonSystem} (h : JettonStep ext s s') :
    ∀ rec ∈ s'.answers, rec ∈ s.answers ∨ AnswerFrom s rec := by
  intro rec hrec
  cases h with
  | walletAddressCached data rid master owner m res _ _ hit =>
    simp only [JettonSystem.verify_answers, JettonSystem.receive, List.mem_append,
      List.mem_singleton] at hrec
    rcases hrec with h | rfl
    · exact .inl h
    · exact .inr (.inl hit)
  | masterEntity data rid master owner fails res _ _ =>
    unfold JettonSystem.masterEntity at hrec
    split at hrec <;>
      simp only [JettonSystem.verify_answers, JettonSystem.receive, List.mem_append,
        List.mem_singleton] at hrec <;>
      rcases hrec with h | rfl
    · exact .inl h
    · exact .inr (.inr (getEntity_ok ‹_›))
    · exact .inl h
    · exact .inr ⟨fails, ‹_›⟩
  | masterImpl r res u _ _ =>
    cases hd : JettonMasterDetector.detectImpl ext u r res <;>
      simp_all [JettonSystem.masterImplEnd, JettonSystem.receive, JettonSystem.setMaster]
  | walletImpl r res _ _ =>
    left
    cases hd : JettonWalletDetector.detectImpl ext r res with
    | fail e | crash e =>
      simpa [hd, JettonSystem.walletImplEnd, JettonSystem.receive, JettonSystem.setWallet] using hrec
    | done w =>
      simp only [hd, JettonSystem.walletImplEnd] at hrec
      split at hrec <;> simpa [JettonSystem.receive, JettonSystem.setWallet] using hrec
  | masterFront | walletFront =>
    exact .inl (by simpa [JettonSystem.masterFront, JettonSystem.walletFront,
      JettonSystem.receive] using hrec)
  | _ => exact .inl (by simpa [JettonSystem.receive] using hrec)

/-- In every run of the jetton detectors, each wallet cached, stored, upserted or handed
to a caller was accepted on an answer of the master: the getter run on the master entity
`check_cache` returned gave back the wallet's own address, or the lookup failed with
`NOT_FOUND_ERROR`. -/
theorem wallet_accepted_only_on_master_answer {ext : Ext} {s : JettonSystem}
    (hs : JettonReachable ext s) :
    ((∀ k w, s.wallet.cache k = some w → WalletAccepted s w) ∧
      (∀ k w, s.walletDb k = some w → WalletAccepted s w) ∧
      (∀ w, .upsertWallet w ∈ s.inbox → WalletAccepted s w) ∧
      (∀ rid w, s.wallet.promises rid = some (.ok w) → WalletAccepted s w)) ∧
    ∀ s', JettonStep ext s s' → ∀ rec ∈ s'.answers, rec ∈ s.answers ∨ AnswerFrom s rec :=
  have hi := walletInv_reachable hs
  ⟨⟨hi.cache, hi.db, hi.upserts, hi.promises⟩, fun _ h => answers_step h⟩

def sampleMasterAddress : StdAddress := ⟨0, Bits256.ofByte 1⟩
def sampleWalletAddress : StdAddress := ⟨0, Bits256.ofByte 2⟩
def sampleOwnerAddress : StdAddress := ⟨0, Bits256.ofByte 3⟩

def sampleMaster : JettonMasterData :=
  ⟨sampleMasterAddress.toRaw, 1000, true, sampleOwnerAddress.toRaw, [], Bits256.ofByte 9, 90,
    Bits256.ofByte 6, Bits256.ofByte 7, ⟨Bits256.ofByte 6⟩, ⟨Bits256.ofByte 7⟩⟩

def sampleWallet : JettonWalletData :=
  ⟨sampleWalletAddress.toRaw, 50, sampleOwnerAddress.toRaw, sampleMasterAddress.toRaw, 100,
    Bits256.ofByte 4, Bits256.ofByte 5⟩

def sampleWalletRequest : Request := ⟨7, sampleWalletAddress, ⟨Bits256.ofByte 4⟩, ⟨Bits256.ofByte 5⟩, 100⟩

def sampleWalletActions : List JettonAction :=
  let r := sampleWalletRequest
  [.callWallet r, .walletFront .detect r false, .walletFront .checkInterface r false,
   .walletFront .detectContinue r false, .walletFront .getEntity r false,
   .walletImpl r ⟨true, [.int 50, .slice (.addrStd sampleOwnerAddress),
     .slice (.addrStd sampleMasterAddress), .cell ⟨Bits256.ofByte 4⟩]⟩,
   .walletAddress sampleWallet 7 sampleMasterAddress sampleOwnerAddress ⟨true, []⟩,
   .masterEntity sampleWallet 7 sampleMasterAddress sampleOwnerAddress false
     ⟨true, [.slice (.addrStd sampleWalletAddress)]⟩]

def sampleWalletStart : JettonSystem :=
  JettonSystem.init StdMap.empty (StdMap.empty.assign sampleMasterAddress.toRaw sampleMaster)

def sampleWalletState : JettonSystem :=
  (sampleWalletStart.runActions .plain sampleWalletActions).getD sampleWalletStart

theorem sampleWalletState_reachable : JettonReachable .plain sampleWalletState :=
  JettonReachable.runActions (.init _ _)
    (show sampleWalletStart.runActions .plain sampleWalletActions = some sampleWalletState from rfl)

theorem sampleWallet_accepted :
    sampleWalletState.wallet.promises 7 = some (.ok sampleWallet) ∧
      WalletAccepted sampleWalletState sampleWallet :=
  have h : sampleWalletState.wallet.promises 7 = some (.ok sampleWallet) := rfl
  ⟨h, (wallet_accepted_only_on_master_answer sampleWalletState_reachable).1.2.2.2 7 sampleWallet h⟩

def JettonMsg.verifiedWallet : JettonMsg → Option JettonWalletData
  | .getWalletAddress data .. | .getMasterEntity data .. => some data
  | _ => none

def RawAddressed (s : JettonSystem) : Prop :=
  ∀ m ∈ s.inbox, ∀ w, m.verifiedWallet = some w → ∃ a : StdAddress, w.address = a.toRaw

theorem JettonWalletDetector.detectImpl_address {ext : Ext} {r : Request} {res : GetterResult}
    {w : JettonWalletData} (h : detectImpl ext r res = .done w) : w.address = r.address.toRaw := by
  unfold detectImpl at h
  split at h
  · cases h
  · split at h
    · split at h <;> cases h; rfl
    · cases h

theorem JettonSystem.verify_inbox (s : JettonSystem) (rec : AnswerRecord) :
    ∀ m ∈ (s.verify rec).inbox, m ∈ s.inbox ∨ m = .upsertWallet rec.data := by
  intro m hm
  unfold JettonSystem.verify at hm
  split at hm
  · exact (List.mem_append.1 hm).imp_right List.mem_singleton.1
  all_goals exact .inl hm

theorem JettonSystem.walletImplEnd_inbox (s : JettonSystem) (r : Request) (e : ImplEnd JettonWalletData) :
    ∀ m ∈ (s.walletImplEnd r e).inbox, m ∈ s.inbox ∨
      ∃ w master owner, e = .done w ∧ m = .getWalletAddress w r.rid master owner := by
  intro m hm
  cases e with
  | fail e | crash e => exact .inl hm
  | done w =>
    simp only [JettonSystem.walletImplEnd] at hm
    generalize StdAddress.parse w.jetton = pj at hm
    generalize StdAddress.parse w.owner = po at hm
    rcases pj with e | master <;> rcases po with e' | owner <;> first
      | exact .inl hm
      | exact (List.mem_append.1 hm).imp_right fun hm => ⟨w, _, _, rfl, List.mem_singleton.1 hm⟩

section Steps

variable {s s' : JettonSystem}

theorem RawAddressed.mono (hi : RawAddressed s) (h : ∀ m ∈ s'.inbox, m ∈ s.inbox ∨ m.verifiedWallet = none) :
    RawAddressed s' := fun m hm w hw =>
  (h m hm).elim (fun h => hi m h w hw) fun h => by simp [h] at hw

theorem RawAddressed.step {ext : Ext} (hi : RawAddressed s) (h : JettonStep ext s s') : RawAddressed s' := by
  have erase : ∀ m x, m ∈ s.inbox.erase x → m ∈ s.inbox := fun _ _ => List.mem_of_mem_erase
  cases h with
  | callMaster | callWallet =>
    exact hi.mono fun m hm => (List.mem_append.1 hm).imp_right fun hm => by simp at hm; subst hm; rfl
  | setInterface | writeMasterDb => exact hi.mono fun m hm => .inl hm
  | upsertMaster | upsertWallet => exact hi.mono fun m hm => .inl (erase _ _ hm)
  | masterFront st r fails _ _ _ | walletFront st r fails _ _ _ =>
    refine hi.mono fun m hm => (List.mem_append.1 hm).imp (erase _ _) fun hm => ?_
    obtain ⟨_, -, rfl⟩ := List.mem_map.1 hm
    rfl
  | masterImpl r res u _ _ =>
    refine hi.mono fun m hm => ?_
    cases hd : JettonMasterDetector.detectImpl ext u r res with
    | fail e | crash e => rw [hd] at hm; exact .inl (erase _ _ hm)
    | done c =>
      rw [hd] at hm
      exact (List.mem_append.1 hm).imp (erase _ _) fun hm => by simp at hm; subst hm; rfl
  | walletImpl r res _ _ =>
    intro m hm w hw
    rcases JettonSystem.walletImplEnd_inbox _ _ _ m hm with hm | ⟨w', master, owner, hd, rfl⟩
    · exact hi m (erase _ _ hm) w hw
    · cases hw
      exact ⟨r.address, JettonWalletDetector.detectImpl_address hd⟩
  | walletAddressCached data rid master owner m res _ pending _ =>
    exact hi.mono fun m hm => (JettonSystem.verify_inbox _ _ m hm).imp (erase _ _) fun h => by subst h; rfl
  | walletAddressMiss data rid master owner _ pending _ =>
    intro m hm w hw
    rcases List.mem_append.1 hm with hm | hm
    · exact hi m (erase _ _ hm) w hw
    · simp only [List.mem_singleton] at hm
      subst hm
      exact hi _ pending w hw
  | masterEntity data rid master owner fails res _ pending =>
    refine hi.mono fun m hm => ?_
    unfold JettonSystem.masterEntity at hm
    split at hm <;>
      exact (JettonSystem.verify_inbox _ _ m hm).imp (erase _ _) fun h => by subst h; rfl

end Steps

theorem JettonReachable.rawAddressed {ext : Ext} {s : JettonSystem} (h : JettonReachable ext s) :
    RawAddressed s := by
  induction h with
  | init => intro m hm; simp [JettonSystem.init] at hm
  | step _ hs ih => exact ih.step hs

/-- In every run, the promise of `verify_belonging_to_master` never takes the abort in
`StdAddress::parse(data.address).move_as_ok()`: every wallet sent to the master carries
the raw address `detect_impl` wrote. -/
theorem verifyReply_ne_crash {ext : Ext} {s : JettonSystem} (h : JettonReachable ext s)
    {w : JettonWalletData} {rid : Nat} {master owner : StdAddress}
    (hm : .getWalletAddress w rid master owner ∈ s.inbox ∨ .getMasterEntity w rid master owner ∈ s.inbox)
    (reply : Except Status StdAddress) : verifyReply w reply ≠ .crash := by
  obtain ⟨a, ha⟩ : ∃ a : StdAddress, w.address = a.toRaw := by
    rcases hm with hm | hm <;> exact h.rawAddressed _ hm w rfl
  cases reply with
  | error e => simp only [verifyReply, ha, StdAddress.parse_toRaw]; split <;> simp
  | ok b => simp only [verifyReply]; split <;> simp

def sampleWalletAsking : JettonSystem :=
  (sampleWalletStart.runActions .plain (sampleWalletActions.take 6)).getD sampleWalletStart

theorem sampleWalletAsking_verify :
    JettonReachable .plain sampleWalletAsking ∧
      JettonMsg.getWalletAddress sampleWallet 7 sampleMasterAddress sampleOwnerAddress ∈ sampleWalletAsking.inbox ∧
      ∀ reply, verifyReply sampleWallet reply ≠ .crash :=
  have hr : JettonReachable .plain sampleWalletAsking := JettonReachable.runActions (.init _ _)
    (show sampleWalletStart.runActions .plain (sampleWalletActions.take 6) = some sampleWalletAsking from rfl)
  have hm : JettonMsg.getWalletAddress sampleWallet 7 sampleMasterAddress sampleOwnerAddress ∈
      sampleWalletAsking.inbox := by decide
  ⟨hr, hm, verifyReply_ne_crash hr (.inl hm)⟩

theorem parseCached_done_found {T B E : Type} {notFound : String} {impl : EventTx → B → ImplEnd E}
    {cache db : StdMap String T} {fails : Bool} {tx : EventTx} {body : B} {ev : E}
    (h : (parseCached notFound impl cache db fails tx body).2 = .done ev) :
    ∃ a w, StdAddress.parse tx.account = .ok a ∧ (cache a.toRaw = some w ∨ db a.toRaw = some w) := by
  obtain ⟨a, w, hp, hc, -⟩ := parseCached_done_iff.1 h
  exact ⟨a, w, hp, (checkCache_ok_iff.1 hc).imp_right fun h => h.2.2⟩

/-- In every run of the jetton detectors, `parse_transfer` and `parse_burn`
reach their record only for an account whose wallet, as `check_cache` finds it
in the cache or the stored wallets, its master accepted. -/
theorem wallet_event_only_for_accepted {ext : Ext} {s : JettonSystem} (h : JettonReachable ext s)
    (fails : Bool) (tx : EventTx) :
    (∀ body t, (JettonWalletDetector.parseTransfer s.wallet.cache s.walletDb fails tx body).2 = .done t →
      ∃ a w, StdAddress.parse tx.account = .ok a ∧
        (s.wallet.cache a.toRaw = some w ∨ s.walletDb a.toRaw = some w) ∧ WalletAccepted s w) ∧
    (∀ body t, (JettonWalletDetector.parseBurn s.wallet.cache s.walletDb fails tx body).2 = .done t →
      ∃ a w, StdAddress.parse tx.account = .ok a ∧
        (s.wallet.cache a.toRaw = some w ∨ s.walletDb a.toRaw = some w) ∧ WalletAccepted s w) := by
  have hi := walletInv_reachable h
  have accepted : ∀ a w, s.wallet.cache a = some w ∨ s.walletDb a = some w → WalletAccepted s w :=
    fun a w hw => hw.elim (hi.cache a w) (hi.db a w)
  refine ⟨fun body t ht => ?_, fun body t ht => ?_⟩ <;>
    obtain ⟨a, w, hp, hw⟩ := parseCached_done_found ht <;> exact ⟨a, w, hp, hw, accepted _ w hw⟩

def sampleWalletEvent : EventTx := ⟨Bits256.ofByte 15, sampleWalletAddress.toRaw, none⟩

def sampleTransferBody : JettonTransferBody :=
  ⟨1, some 10, .addrStd sampleOwnerAddress, .addrNone, some none, none, some none⟩

theorem sampleWalletEvent_accepted :
    JettonReachable .plain sampleWalletState ∧
      (JettonWalletDetector.parseTransfer sampleWalletState.wallet.cache sampleWalletState.walletDb false
        sampleWalletEvent (some sampleTransferBody)).2 =
        .done ⟨Bits256.ofByte 15, 1, 10, sampleOwnerAddress.toRaw, "addr_none", none, none, none⟩ ∧
      ∃ a w, StdAddress.parse sampleWalletEvent.account = .ok a ∧
        (sampleWalletState.wallet.cache a.toRaw = some w ∨ sampleWalletState.walletDb a.toRaw = some w) ∧
        WalletAccepted sampleWalletState w :=
  have hd : (JettonWalletDetector.parseTransfer sampleWalletState.wallet.cache sampleWalletState.walletDb false
      sampleWalletEvent (some sampleTransferBody)).2 =
      .done ⟨Bits256.ofByte 15, 1, 10, sampleOwnerAddress.toRaw, "addr_none", none, none, none⟩ := rfl
  ⟨sampleWalletState_reachable, hd,
    (wallet_event_only_for_accepted sampleWalletState_reachable false sampleWalletEvent).1 _ _ hd⟩

end TonIndex
