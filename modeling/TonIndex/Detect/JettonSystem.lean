import TonIndex.Detect.Impl

/-!
The jetton master and jetton wallet detectors as one system of actors: the two
detectors, the `InterfaceManager` and the insert manager, with every message
in flight kept in `inbox`. A step handles one message, so the runs of
`JettonStep` are all the interleavings of any number of `detect` calls.

`answers` is ghost state: every answer the master's `get_wallet_address`
delivered to the promise of `verify_belonging_to_master`, with the master
entity `check_cache` returned and the getter result it was run with.
-/

set_option autoImplicit false

namespace TonIndex

/-- What `JettonMasterDetector::get_wallet_address` produced: `ran m res` when
`check_cache` returned `m` and the getter run on it returned `res`, `lookupFailed e`
when `check_cache` failed with `e`. -/
inductive MasterAnswer
  | ran (m : JettonMasterData) (res : GetterResult)
  | lookupFailed (e : Status)

def MasterAnswer.reply : MasterAnswer → Except Status StdAddress
  | .ran _ res => walletAddressOf res
  | .lookupFailed e => .error e

inductive JettonMsg
  | master (st : Stage) (r : Request)
  | wallet (st : Stage) (r : Request)
  | getWalletAddress (data : JettonWalletData) (rid : Nat) (master owner : StdAddress)
  | getMasterEntity (data : JettonWalletData) (rid : Nat) (master owner : StdAddress)
  | upsertMaster (m : JettonMasterData)
  | upsertWallet (w : JettonWalletData)
  deriving DecidableEq

structure AnswerRecord where
  rid : Nat
  data : JettonWalletData
  master : StdAddress
  owner : StdAddress
  answer : MasterAnswer

structure JettonSystem where
  verdicts : Verdicts
  master : DetectorState JettonMasterData
  wallet : DetectorState JettonWalletData
  masterDb : StdMap String JettonMasterData
  walletDb : StdMap String JettonWalletData
  inbox : List JettonMsg
  halted : Bool
  answers : List AnswerRecord

inductive VerifyEnd
  | accept (key : StdAddress)
  | reject (e : Status)
  /-- `StdAddress::parse(data.address).move_as_ok()` of an address that does not parse. -/
  | crash
  deriving DecidableEq

def verifyReply (data : JettonWalletData) : Except Status StdAddress → VerifyEnd
  | .error e =>
      if e.code = .notFoundError then
        match StdAddress.parse data.address with
        | .ok a => .accept a
        | .error _ => .crash
      else .reject e
  | .ok a =>
      if a.toRaw ≠ data.address then
        .reject ⟨.smcInterfaceParseError, "Couldn't verify Jetton Wallet. Possibly scam."⟩
      else .accept a

namespace JettonSystem

def receive (s : JettonSystem) (m : JettonMsg) : JettonSystem := {s with inbox := s.inbox.erase m}

def setMaster (s : JettonSystem) (rid : Nat) (v : Except Status JettonMasterData) : JettonSystem :=
  {s with master := {s.master with promises := s.master.promises.set rid v}}

def setWallet (s : JettonSystem) (rid : Nat) (v : Except Status JettonWalletData) : JettonSystem :=
  {s with wallet := {s.wallet with promises := s.wallet.promises.set rid v}}

def masterFront (s : JettonSystem) (fails : Bool) (r : Request) (st : Stage) : JettonSystem :=
  let out := frontStep (JettonMasterDetector.detect s.verdicts) s.masterDb fails r s.master st
  {s with master := out.1, inbox := s.inbox ++ out.2.map (.master · r)}

def walletFront (s : JettonSystem) (fails : Bool) (r : Request) (st : Stage) : JettonSystem :=
  let out := frontStep (JettonWalletDetector.detect s.verdicts) s.walletDb fails r s.wallet st
  {s with wallet := out.1, inbox := s.inbox ++ out.2.map (.wallet · r)}

def masterImplEnd (s : JettonSystem) (r : Request) : ImplEnd JettonMasterData → JettonSystem
  | .fail e => s.setMaster r.rid (.error e)
  | .crash e => {s.setMaster r.rid (.error e) with halted := true}
  | .done m =>
      {s with master := ⟨s.master.cache.emplace r.address.toRaw m, s.master.promises.set r.rid (.ok m)⟩,
              inbox := s.inbox ++ [.upsertMaster m]}

/-- The end of `JettonWalletDetector::detect_impl` and the synchronous part of
`verify_belonging_to_master`, which parses the two addresses and asks the
master detector. -/
def walletImplEnd (s : JettonSystem) (r : Request) : ImplEnd JettonWalletData → JettonSystem
  | .fail e => s.setWallet r.rid (.error e)
  | .crash e => {s.setWallet r.rid (.error e) with halted := true}
  | .done w =>
      match StdAddress.parse w.jetton, StdAddress.parse w.owner with
      | .error e, _ =>
          s.setWallet r.rid (.error (e.withPrefix ("Failed to parse jetton master address (" ++ w.jetton ++ "): ")))
      | .ok _, .error e =>
          s.setWallet r.rid (.error (e.withPrefix ("Failed to parse jetton owner address (" ++ w.owner ++ "): ")))
      | .ok master, .ok owner => {s with inbox := s.inbox ++ [.getWalletAddress w r.rid master owner]}

def verify (s : JettonSystem) (rec : AnswerRecord) : JettonSystem :=
  let s := {s with answers := s.answers ++ [rec]}
  match verifyReply rec.data rec.answer.reply with
  | .accept key =>
      {s with wallet := ⟨s.wallet.cache.emplace key.toRaw rec.data,
                         s.wallet.promises.set rec.rid (.ok rec.data)⟩,
              inbox := s.inbox ++ [.upsertWallet rec.data]}
  | .reject e => s.setWallet rec.rid (.error e)
  | .crash => {s with halted := true}

def masterEntity (s : JettonSystem) (fails : Bool) (res : GetterResult) (data : JettonWalletData)
    (rid : Nat) (master owner : StdAddress) : JettonSystem :=
  match getEntity s.masterDb fails master.toRaw with
  | .ok m =>
      ({s with master := {s.master with cache := s.master.cache.emplace master.toRaw m}}).verify
        ⟨rid, data, master, owner, .ran m res⟩
  | .error e => s.verify ⟨rid, data, master, owner, .lookupFailed e⟩

end JettonSystem

/-- The runs of the jetton detectors. Each constructor is one handler; `ext`
is the code outside the source the detectors call. -/
inductive JettonStep (ext : Ext) : JettonSystem → JettonSystem → Prop
  | callMaster {s : JettonSystem} (r : Request) (live : s.halted = false) :
      JettonStep ext s {s with inbox := s.inbox ++ [.master .detect r]}
  | callWallet {s : JettonSystem} (r : Request) (live : s.halted = false) :
      JettonStep ext s {s with inbox := s.inbox ++ [.wallet .detect r]}
  | setInterface {s : JettonSystem} (h : Bits256) (i : SmcInterface) (has : Bool)
      (live : s.halted = false) :
      JettonStep ext s {s with verdicts := s.verdicts.assign (h, i) has}
  | writeMasterDb {s : JettonSystem} (k : String) (m : JettonMasterData) (live : s.halted = false) :
      JettonStep ext s {s with masterDb := s.masterDb.assign k m}
  | masterFront {s : JettonSystem} (st : Stage) (r : Request) (fails : Bool)
      (live : s.halted = false) (pending : .master st r ∈ s.inbox) (shared : st ≠ .detectImpl) :
      JettonStep ext s ((s.receive (.master st r)).masterFront fails r st)
  | walletFront {s : JettonSystem} (st : Stage) (r : Request) (fails : Bool)
      (live : s.halted = false) (pending : .wallet st r ∈ s.inbox) (shared : st ≠ .detectImpl) :
      JettonStep ext s ((s.receive (.wallet st r)).walletFront fails r st)
  | masterImpl {s : JettonSystem} (r : Request) (res : GetterResult) (unsetCodeHash : Bits256)
      (live : s.halted = false) (pending : .master .detectImpl r ∈ s.inbox) :
      JettonStep ext s ((s.receive (.master .detectImpl r)).masterImplEnd r
        (JettonMasterDetector.detectImpl ext unsetCodeHash r res))
  | walletImpl {s : JettonSystem} (r : Request) (res : GetterResult)
      (live : s.halted = false) (pending : .wallet .detectImpl r ∈ s.inbox) :
      JettonStep ext s ((s.receive (.wallet .detectImpl r)).walletImplEnd r
        (JettonWalletDetector.detectImpl ext r res))
  /-- `get_wallet_address` with the master in the cache: `get_wallet_address_impl`
  runs at once, with any result of the getter. -/
  | walletAddressCached {s : JettonSystem} (data : JettonWalletData) (rid : Nat)
      (master owner : StdAddress) (m : JettonMasterData) (res : GetterResult)
      (live : s.halted = false) (pending : .getWalletAddress data rid master owner ∈ s.inbox)
      (hit : s.master.cache master.toRaw = some m) :
      JettonStep ext s ((s.receive (.getWalletAddress data rid master owner)).verify
        ⟨rid, data, master, owner, .ran m res⟩)
  /-- `get_wallet_address` with the master not cached: `check_cache` asks the insert manager. -/
  | walletAddressMiss {s : JettonSystem} (data : JettonWalletData) (rid : Nat)
      (master owner : StdAddress) (live : s.halted = false)
      (pending : .getWalletAddress data rid master owner ∈ s.inbox)
      (miss : s.master.cache master.toRaw = none) :
      JettonStep ext s (let s' := s.receive (.getWalletAddress data rid master owner)
        {s' with inbox := s'.inbox ++ [.getMasterEntity data rid master owner]})
  | masterEntity {s : JettonSystem} (data : JettonWalletData) (rid : Nat)
      (master owner : StdAddress) (fails : Bool) (res : GetterResult) (live : s.halted = false)
      (pending : .getMasterEntity data rid master owner ∈ s.inbox) :
      JettonStep ext s ((s.receive (.getMasterEntity data rid master owner)).masterEntity
        fails res data rid master owner)
  /-- Modelled from the spec: `upsert_entity<T>` stores the entity under its address. -/
  | upsertMaster {s : JettonSystem} (m : JettonMasterData) (live : s.halted = false)
      (pending : .upsertMaster m ∈ s.inbox) :
      JettonStep ext s {s.receive (.upsertMaster m) with masterDb := s.masterDb.assign m.address m}
  | upsertWallet {s : JettonSystem} (w : JettonWalletData) (live : s.halted = false)
      (pending : .upsertWallet w ∈ s.inbox) :
      JettonStep ext s {s.receive (.upsertWallet w) with walletDb := s.walletDb.assign w.address w}

/-- A fresh process: empty caches, no wallets stored, no call in flight; the
interface verdicts and the stored masters are arbitrary. -/
def JettonSystem.init (verdicts : Verdicts) (masterDb : StdMap String JettonMasterData) :
    JettonSystem :=
  ⟨verdicts, .empty, .empty, masterDb, StdMap.empty, [], false, []⟩

/-- A restart over what an earlier process stored: the caches, the calls in
flight and a halt are gone and the interface verdicts are new; the databases,
and the record of the master's answers, stay. -/
def JettonSystem.restart (s : JettonSystem) (verdicts : Verdicts) : JettonSystem :=
  {s with verdicts := verdicts, master := .empty, wallet := .empty, inbox := [], halted := false}

def JettonSystem.StepOrRestart (ext : Ext) (s s' : JettonSystem) : Prop :=
  JettonStep ext s s' ∨ ∃ verdicts, s' = s.restart verdicts

inductive JettonReachable (ext : Ext) : JettonSystem → Prop
  | init (verdicts : Verdicts) (masterDb : StdMap String JettonMasterData) :
      JettonReachable ext (JettonSystem.init verdicts masterDb)
  | step {s s' : JettonSystem} : JettonReachable ext s → JettonStep ext s s' → JettonReachable ext s'

inductive JettonAction
  | callMaster (r : Request)
  | callWallet (r : Request)
  | masterFront (st : Stage) (r : Request) (fails : Bool)
  | walletFront (st : Stage) (r : Request) (fails : Bool)
  | masterImpl (r : Request) (res : GetterResult) (unsetCodeHash : Bits256)
  | walletImpl (r : Request) (res : GetterResult)
  | walletAddress (data : JettonWalletData) (rid : Nat) (master owner : StdAddress)
      (res : GetterResult)
  | masterEntity (data : JettonWalletData) (rid : Nat) (master owner : StdAddress) (fails : Bool)
      (res : GetterResult)
  | upsertMaster (m : JettonMasterData)
  | upsertWallet (w : JettonWalletData)

def JettonAction.run (ext : Ext) (s : JettonSystem) : JettonAction → Option JettonSystem
  | .callMaster r => if s.halted = false then some {s with inbox := s.inbox ++ [.master .detect r]} else none
  | .callWallet r => if s.halted = false then some {s with inbox := s.inbox ++ [.wallet .detect r]} else none
  | .masterFront st r fails =>
      if s.halted = false ∧ .master st r ∈ s.inbox ∧ st ≠ .detectImpl then
        some ((s.receive (.master st r)).masterFront fails r st) else none
  | .walletFront st r fails =>
      if s.halted = false ∧ .wallet st r ∈ s.inbox ∧ st ≠ .detectImpl then
        some ((s.receive (.wallet st r)).walletFront fails r st) else none
  | .masterImpl r res u =>
      if s.halted = false ∧ .master .detectImpl r ∈ s.inbox then
        some ((s.receive (.master .detectImpl r)).masterImplEnd r
          (JettonMasterDetector.detectImpl ext u r res)) else none
  | .walletImpl r res =>
      if s.halted = false ∧ .wallet .detectImpl r ∈ s.inbox then
        some ((s.receive (.wallet .detectImpl r)).walletImplEnd r
          (JettonWalletDetector.detectImpl ext r res)) else none
  | .walletAddress data rid master owner res =>
      if s.halted = false ∧ .getWalletAddress data rid master owner ∈ s.inbox then
        match s.master.cache master.toRaw with
        | some m => some ((s.receive (.getWalletAddress data rid master owner)).verify
            ⟨rid, data, master, owner, .ran m res⟩)
        | none => some (let s' := s.receive (.getWalletAddress data rid master owner)
            {s' with inbox := s'.inbox ++ [.getMasterEntity data rid master owner]})
      else none
  | .masterEntity data rid master owner fails res =>
      if s.halted = false ∧ .getMasterEntity data rid master owner ∈ s.inbox then
        some ((s.receive (.getMasterEntity data rid master owner)).masterEntity fails res data rid
          master owner) else none
  | .upsertMaster m =>
      if s.halted = false ∧ .upsertMaster m ∈ s.inbox then
        some {s.receive (.upsertMaster m) with masterDb := s.masterDb.assign m.address m} else none
  | .upsertWallet w =>
      if s.halted = false ∧ .upsertWallet w ∈ s.inbox then
        some {s.receive (.upsertWallet w) with walletDb := s.walletDb.assign w.address w} else none

theorem JettonAction.run_step {ext : Ext} {s s' : JettonSystem} {a : JettonAction}
    (h : a.run ext s = some s') : JettonStep ext s s' := by
  cases a with
  | callMaster r => simp only [run] at h; split at h <;> cases h; exact .callMaster r ‹_›
  | callWallet r => simp only [run] at h; split at h <;> cases h; exact .callWallet r ‹_›
  | masterFront st r fails =>
    simp only [run] at h; split at h <;> cases h
    obtain ⟨live, pending, shared⟩ := ‹_ ∧ _›
    exact .masterFront st r fails live pending shared
  | walletFront st r fails =>
    simp only [run] at h; split at h <;> cases h
    obtain ⟨live, pending, shared⟩ := ‹_ ∧ _›
    exact .walletFront st r fails live pending shared
  | masterImpl r res u =>
    simp only [run] at h; split at h <;> cases h
    exact .masterImpl r res u ‹_ ∧ _›.1 ‹_ ∧ _›.2
  | walletImpl r res =>
    simp only [run] at h; split at h <;> cases h
    exact .walletImpl r res ‹_ ∧ _›.1 ‹_ ∧ _›.2
  | walletAddress data rid master owner res =>
    simp only [run] at h; split at h
    · rename_i hg
      split at h <;> cases h
      · exact .walletAddressCached data rid master owner _ res hg.1 hg.2 ‹_›
      · exact .walletAddressMiss data rid master owner hg.1 hg.2 ‹_›
    · cases h
  | masterEntity data rid master owner fails res =>
    simp only [run] at h; split at h <;> cases h
    exact .masterEntity data rid master owner fails res ‹_ ∧ _›.1 ‹_ ∧ _›.2
  | upsertMaster m =>
    simp only [run] at h; split at h <;> cases h
    exact .upsertMaster m ‹_ ∧ _›.1 ‹_ ∧ _›.2
  | upsertWallet w =>
    simp only [run] at h; split at h <;> cases h
    exact .upsertWallet w ‹_ ∧ _›.1 ‹_ ∧ _›.2

def JettonSystem.runActions (ext : Ext) : JettonSystem → List JettonAction → Option JettonSystem
  | s, [] => some s
  | s, a :: as => (a.run ext s).bind fun s' => s'.runActions ext as

theorem JettonReachable.runActions {ext : Ext} {s s' : JettonSystem} {as : List JettonAction}
    (hs : JettonReachable ext s) (h : s.runActions ext as = some s') : JettonReachable ext s' := by
  induction as generalizing s with
  | nil => cases h; exact hs
  | cons a as ih =>
    simp only [JettonSystem.runActions, Option.bind_eq_some] at h
    obtain ⟨s₁, h₁, h₂⟩ := h
    exact ih (hs.step (JettonAction.run_step h₁)) h₂

end TonIndex
