import TonIndex.Detect.WalletCheck
import Mathlib.Logic.Relation

set_option autoImplicit false

namespace TonIndex

@[simp] theorem JettonSystem.verify_master (s : JettonSystem) (rec : AnswerRecord) :
    (s.verify rec).master = s.master := by
  unfold JettonSystem.verify; split <;> rfl

theorem JettonSystem.verify_wallet_cache_keep {s : JettonSystem} {rec : AnswerRecord} {k : String}
    {w : JettonWalletData} (h : s.wallet.cache k = some w) : (s.verify rec).wallet.cache k = some w := by
  unfold JettonSystem.verify; split
  · exact StdMap.emplace_of_some h
  · exact h
  · exact h

theorem JettonStep.cache_keep {ext : Ext} {s s' : JettonSystem} (h : JettonStep ext s s')
    (k : String) :
    (∀ m, s.master.cache k = some m → s'.master.cache k = some m) ∧
      (∀ w, s.wallet.cache k = some w → s'.wallet.cache k = some w) := by
  cases h with
  | masterFront => exact ⟨fun _ h => frontStep_cache_keep h, fun _ h => h⟩
  | walletFront => exact ⟨fun _ h => h, fun _ h => frontStep_cache_keep h⟩
  | masterImpl r res u =>
    refine ⟨fun m h => ?_, fun w h => ?_⟩ <;>
      cases JettonMasterDetector.detectImpl ext u r res <;>
      first | exact h | exact StdMap.emplace_of_some h
  | walletImpl r res =>
    refine ⟨fun m h => ?_, fun w h => ?_⟩ <;>
      cases JettonWalletDetector.detectImpl ext r res <;>
      first | exact h | (simp only [JettonSystem.walletImplEnd]; split <;> exact h)
  | walletAddressCached =>
    exact ⟨fun _ h => by simpa using h, fun _ h => JettonSystem.verify_wallet_cache_keep h⟩
  | masterEntity data rid master owner fails res =>
    unfold JettonSystem.masterEntity
    split
    · exact ⟨fun _ h => by simpa using StdMap.emplace_of_some h,
        fun _ h => JettonSystem.verify_wallet_cache_keep h⟩
    · exact ⟨fun _ h => by simpa using h, fun _ h => JettonSystem.verify_wallet_cache_keep h⟩
  | _ => exact ⟨fun _ h => h, fun _ h => h⟩

/-- Along every run, an entity cached for a key stays the entity cached for it. -/
theorem cache_keep_run {ext : Ext} {s s' : JettonSystem}
    (h : Relation.ReflTransGen (JettonStep ext) s s') (k : String) :
    (∀ m, s.master.cache k = some m → s'.master.cache k = some m) ∧
      (∀ w, s.wallet.cache k = some w → s'.wallet.cache k = some w) := by
  induction h with
  | refl => exact ⟨fun _ h => h, fun _ h => h⟩
  | tail _ hs ih =>
    exact ⟨fun m h => (hs.cache_keep k).1 m (ih.1 m h), fun w h => (hs.cache_keep k).2 w (ih.2 w h)⟩

def JettonSystem.fresh : JettonSystem := JettonSystem.init StdMap.empty StdMap.empty

def JettonSystem.runFresh (as : List JettonAction) : JettonSystem :=
  (JettonSystem.fresh.runActions .plain as).getD JettonSystem.fresh

def sampleJettonCode : Cell := ⟨Bits256.ofByte 2⟩
def sampleJettonData : Cell := ⟨Bits256.ofByte 3⟩

def firstMasterCall : Request := ⟨1, sampleMasterAddress, sampleJettonCode, sampleJettonData, 100⟩

def sampleJettonDataResult : GetterResult :=
  ⟨true, [.int 1000, .int 1, .slice (.addrStd sampleOwnerAddress), .cell ⟨Bits256.ofByte 5⟩,
    .cell ⟨Bits256.ofByte 6⟩]⟩

def firstMasterEntity : JettonMasterData :=
  ⟨sampleMasterAddress.toRaw, 1000, true, sampleOwnerAddress.toRaw, [], Bits256.ofByte 6, 100,
    Bits256.zero, sampleJettonData.hash, sampleJettonCode, sampleJettonData⟩

def detectMasterTwice (second : Request) : List JettonAction :=
  let front (r : Request) : List JettonAction :=
    [.callMaster r, .masterFront .detect r false, .masterFront .checkInterface r false,
     .masterFront .detectContinue r false]
  front firstMasterCall ++
    [.masterFront .getEntity firstMasterCall false,
     .masterImpl firstMasterCall sampleJettonDataResult Bits256.zero] ++ front second

theorem runFresh_reachable (as : List JettonAction)
    (h : (JettonSystem.fresh.runActions .plain as).isSome = true) :
    JettonReachable .plain (JettonSystem.runFresh as) := by
  obtain ⟨s, hs⟩ := Option.isSome_iff_exists.1 h
  have e : JettonSystem.runFresh as = s := by simp [JettonSystem.runFresh, hs]
  exact e ▸ JettonReachable.runActions (.init _ _) hs

def sameCellsCall : Request := ⟨2, sampleMasterAddress, sampleJettonCode, sampleJettonData, 200⟩

/-- A master asked again about the cells it cached misses its cache, and running
`detect_impl` completes the call with another entity. -/
def sameCellsState : JettonSystem := JettonSystem.runFresh (detectMasterTwice sameCellsCall)

theorem master_detect_same_cells_runs_getter :
    JettonReachable .plain sameCellsState ∧
      sameCellsState.master.cache sampleMasterAddress.toRaw = some firstMasterEntity ∧
      JettonMasterDetector.detectImpl .plain Bits256.zero firstMasterCall sampleJettonDataResult =
        .done firstMasterEntity ∧
      sameCellsState.verdicts (sampleJettonCode.hash, .itJettonMaster) = none ∧
      sameCellsState.master.promises sameCellsCall.rid = none ∧
      .master .detectImpl sameCellsCall ∈ sameCellsState.inbox ∧
      ∃ e, (sameCellsState.runActions .plain [.masterImpl sameCellsCall sampleJettonDataResult Bits256.zero]).map
        (·.master.promises sameCellsCall.rid) = some (some (.ok e)) ∧ e ≠ firstMasterEntity :=
  ⟨runFresh_reachable _ (by decide), rfl, rfl, rfl, rfl, by decide,
    ⟨sampleMasterAddress.toRaw, 1000, true, sampleOwnerAddress.toRaw, [], Bits256.ofByte 6, 200,
      Bits256.zero, sampleJettonData.hash, sampleJettonCode, sampleJettonData⟩, rfl, by decide⟩

def newDataCall : Request := ⟨2, sampleMasterAddress, sampleJettonCode, ⟨Bits256.ofByte 4⟩, 200⟩

def newDataState : JettonSystem := JettonSystem.runFresh
  (detectMasterTwice newDataCall ++ [.masterImpl newDataCall sampleJettonDataResult Bits256.zero])

theorem master_cache_keeps_older_entity :
    JettonReachable .plain newDataState ∧ ∃ older newer : JettonMasterData,
      newDataState.master.cache sampleMasterAddress.toRaw = some older ∧
      newDataState.master.promises newDataCall.rid = some (.ok newer) ∧
      .upsertMaster newer ∈ newDataState.inbox ∧ older.lastTransactionLt < newer.lastTransactionLt :=
  ⟨runFresh_reachable _ (by decide), firstMasterEntity,
    ⟨sampleMasterAddress.toRaw, 1000, true, sampleOwnerAddress.toRaw, [], Bits256.ofByte 6, 200,
      Bits256.zero, Bits256.ofByte 4, sampleJettonCode, ⟨Bits256.ofByte 4⟩⟩, rfl, rfl, by decide,
    by decide⟩

end TonIndex
