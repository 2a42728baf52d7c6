import Mathlib.Logic.Function.Basic
import Mathlib.Data.List.Basic

/-!
Values the indexer's actors pass around: 256-bit hashes, standard addresses
and their raw `workchain:HEX` spelling, `td::Status` errors, and the keyed
tables every component keeps (a `std::map`, and the one-shot promises of the
requests in flight).
-/

set_option autoImplicit false

namespace TonIndex

/-- `td::Bits256`: a cell, message or account hash, exactly 32 bytes. -/
structure Bits256 where
  bytes : List UInt8
  length_bytes : bytes.length = 32
  deriving DecidableEq

def Bits256.zero : Bits256 := ⟨List.replicate 32 0, rfl⟩

def Bits256.ofByte (b : UInt8) : Bits256 := ⟨List.replicate 31 0 ++ [b], by simp⟩

def hexDigit (n : Nat) : Char := "0123456789ABCDEF".toList.getD n '0'

def hexBytes : List UInt8 → List Char
  | [] => []
  | b :: bs => hexDigit (b.toNat / 16) :: hexDigit (b.toNat % 16) :: hexBytes bs

/-- `to_hex()`: two upper-case digits per byte. -/
def Bits256.toHex (h : Bits256) : String := ⟨hexBytes h.bytes⟩

theorem length_hexBytes (bs : List UInt8) : (hexBytes bs).length = 2 * bs.length := by
  induction bs with
  | nil => rfl
  | cons b bs ih => simp only [hexBytes,List.length_cons,ih]; omega

@[simp] theorem Bits256.length_toHex (h : Bits256) : h.toHex.length = 64 := by
  simp [Bits256.toHex,String.length,length_hexBytes,h.length_bytes]

/-- The codes the indexer's errors carry. `plain` is the code of a
`td::Status::Error(message)`, which names none. -/
inductive ErrorCode
  | plain
  | notFoundError
  | smcInterfaceParseError
  | eventParseError
  | dbError
  deriving DecidableEq, Repr

structure Status where
  code : ErrorCode
  message : String
  deriving DecidableEq, Repr

def Status.withPrefix (e : Status) (pre : String) : Status := ⟨e.code, pre ++ e.message⟩

structure StdAddress where
  workchain : Int
  addr : Bits256
  deriving DecidableEq

/-- `convert::to_raw_address` of a standard address: `workchain:HEX`, the
spelling the trace inserter also writes for its account keys. -/
def StdAddress.toRaw (a : StdAddress) : String :=
  toString a.workchain ++ ":" ++ a.addr.toHex

def hexValue (c : Char) : Option Nat :=
  if '0' ≤ c ∧ c ≤ '9' then some (c.toNat - '0'.toNat)
  else if 'A' ≤ c ∧ c ≤ 'F' then some (c.toNat - 'A'.toNat + 10)
  else if 'a' ≤ c ∧ c ≤ 'f' then some (c.toNat - 'a'.toNat + 10)
  else none

def unhexBytes : List Char → Option (List UInt8)
  | [] => some []
  | hi :: lo :: rest => do
      let h ← hexValue hi
      let l ← hexValue lo
      let bs ← unhexBytes rest
      pure (UInt8.ofNat (16 * h + l) :: bs)
  | [_] => none

def decimalValue : List Char → Nat → Option Nat
  | [], acc => some acc
  | c :: cs, acc =>
      if '0' ≤ c ∧ c ≤ '9' then decimalValue cs (10 * acc + (c.toNat - '0'.toNat)) else none

def workchainValue : List Char → Option Int
  | [] => none
  | '-' :: ds => if ds = [] then none else (decimalValue ds 0).map fun n => -(n : Int)
  | ds => (decimalValue ds 0).map fun n => (n : Int)

/-- `block::StdAddress::parse` on the raw spelling, the only one the modelled
code hands it. -/
def StdAddress.parse (s : String) : Except Status StdAddress :=
  let (wc, rest) := s.data.span (· ≠ ':')
  match workchainValue wc, rest with
  | some w, ':' :: hex =>
      match unhexBytes hex with
      | some bs =>
          if h : bs.length = 32 then .ok ⟨w, ⟨bs, h⟩⟩
          else .error ⟨.plain, "cannot parse address"⟩
      | none => .error ⟨.plain, "cannot parse address"⟩
  | _, _ => .error ⟨.plain, "cannot parse address"⟩

theorem StdAddress.parse_error_code {s : String} {e : Status} (h : StdAddress.parse s = .error e) :
    e.code = .plain := by
  unfold StdAddress.parse at h
  split at h
  split at h
  · split at h
    · split at h
      · cases h
      · cases h; rfl
    · cases h; rfl
  · cases h; rfl

theorem hexValue_hexDigit : ∀ n < 16, hexValue (hexDigit n) = some n := by decide

theorem unhexBytes_hexBytes : ∀ bs : List UInt8, unhexBytes (hexBytes bs) = some bs
  | [] => rfl
  | b :: bs => by
    have hb : b.toNat < 256 := UInt8.toNat_lt_size b
    simp only [hexBytes, unhexBytes, hexValue_hexDigit _ (show b.toNat / 16 < 16 by omega),
      hexValue_hexDigit _ (Nat.mod_lt _ (by omega)), unhexBytes_hexBytes bs, Option.bind_eq_bind,
      Option.some_bind, Nat.div_add_mod]
    congr
    exact UInt8.toNat.inj (UInt8.toNat_ofNat_of_lt (by simpa using hb))

theorem digitChar_digit : ∀ d < 10,
    ('0' ≤ Nat.digitChar d ∧ Nat.digitChar d ≤ '9') ∧ (Nat.digitChar d).toNat - '0'.toNat = d := by
  decide

theorem decimalValue_append (l₁ l₂ : List Char) :
    ∀ acc, decimalValue (l₁ ++ l₂) acc = (decimalValue l₁ acc).bind (decimalValue l₂) := by
  induction l₁ with
  | nil => intro acc; rfl
  | cons c cs ih => intro acc; simp only [List.cons_append, decimalValue]; split <;> simp [ih]

theorem toDigitsCore_succ (fuel n : Nat) (ds : List Char) :
    Nat.toDigitsCore 10 (fuel + 1) n ds =
      if n / 10 = 0 then Nat.digitChar (n % 10) :: ds
      else Nat.toDigitsCore 10 fuel (n / 10) (Nat.digitChar (n % 10) :: ds) := rfl

theorem toDigitsCore_append : ∀ (fuel n : Nat) (ds : List Char),
    Nat.toDigitsCore 10 fuel n ds = Nat.toDigitsCore 10 fuel n [] ++ ds
  | 0, _, _ => rfl
  | fuel + 1, n, ds => by
    simp only [toDigitsCore_succ]
    split
    · rfl
    · rw [toDigitsCore_append fuel _ (_ :: ds), toDigitsCore_append fuel _ [_]]; simp

theorem toDigitsCore_digits : ∀ (fuel n : Nat), ∀ c ∈ Nat.toDigitsCore 10 fuel n [],
    '0' ≤ c ∧ c ≤ '9'
  | 0, _, c, h => by cases h
  | fuel + 1, n, c, h => by
    simp only [toDigitsCore_succ] at h
    split at h
    · rw [List.mem_singleton.1 h]; exact (digitChar_digit _ (Nat.mod_lt _ (by omega))).1
    · rw [toDigitsCore_append, List.mem_append, List.mem_singleton] at h
      rcases h with h | rfl
      · exact toDigitsCore_digits fuel _ c h
      · exact (digitChar_digit _ (Nat.mod_lt _ (by omega))).1

theorem decimalValue_toDigitsCore : ∀ (fuel n : Nat), n < fuel →
    decimalValue (Nat.toDigitsCore 10 fuel n []) 0 = some n
  | 0, _, h => absurd h (Nat.not_lt_zero _)
  | fuel + 1, n, h => by
    obtain ⟨hd, hv⟩ := digitChar_digit (n % 10) (Nat.mod_lt _ (by omega))
    simp only [toDigitsCore_succ]
    split
    · simp only [decimalValue, hd, and_self, if_true, hv, Option.some.injEq]; omega
    · rw [toDigitsCore_append, decimalValue_append, decimalValue_toDigitsCore fuel _ (by omega)]
      simp only [decimalValue, hd, and_self, if_true, hv, Option.some_bind, Option.some.injEq]; omega

theorem toDigitsCore_ne_nil (fuel n : Nat) : Nat.toDigitsCore 10 (fuel + 1) n [] ≠ [] := by
  simp only [toDigitsCore_succ]
  split
  · simp
  · rw [toDigitsCore_append]; simp

theorem workchainValue_toString (w : Int) : workchainValue (toString w).data = some w := by
  cases w with
  | ofNat m =>
    show workchainValue (Nat.toDigitsCore 10 (m + 1) m []) = some (m : Int)
    have hd := toDigitsCore_digits (m + 1) m
    unfold workchainValue
    split
    · exact absurd ‹_› (toDigitsCore_ne_nil m m)
    · rename_i ds h
      have := (hd '-' (h ▸ List.mem_cons_self _ _)).1
      exact absurd this (by decide)
    · simp [decimalValue_toDigitsCore (m + 1) m (Nat.lt_succ_self m)]
  | negSucc m =>
    show workchainValue ('-' :: Nat.toDigitsCore 10 (m + 2) (m + 1) []) = some (Int.negSucc m)
    simp only [workchainValue, toDigitsCore_ne_nil, if_false,
      decimalValue_toDigitsCore (m + 2) (m + 1) (Nat.lt_succ_self _)]
    rfl

theorem toString_int_no_colon (w : Int) : ∀ c ∈ (toString w).data, c ≠ ':' := by
  cases w with
  | ofNat m =>
    intro c hc
    have := toDigitsCore_digits (m + 1) m c hc
    intro h; subst h; exact absurd this (by decide)
  | negSucc m =>
    intro c hc
    rcases List.mem_cons.1 hc with rfl | hc
    · decide
    · have := toDigitsCore_digits (m + 2) (m + 1) c hc
      intro h; subst h; exact absurd this (by decide)

/-- The raw spelling the inserter writes parses back to the address. -/
theorem StdAddress.parse_toRaw (a : StdAddress) : StdAddress.parse a.toRaw = .ok a := by
  obtain ⟨w, ⟨bs, hbs⟩⟩ := a
  have hspan : (StdAddress.toRaw ⟨w, ⟨bs, hbs⟩⟩).data.span (· ≠ ':') =
      ((toString w).data, ':' :: hexBytes bs) := by
    rw [List.span_eq_take_drop]
    simp only [StdAddress.toRaw, Bits256.toHex, String.data_append, List.append_assoc]
    have hno := toString_int_no_colon w
    rw [List.takeWhile_append_of_pos (by simpa using hno), List.dropWhile_append_of_pos (by simpa using hno)]
    simp
  unfold StdAddress.parse
  rw [hspan]
  simp [workchainValue_toString, unhexBytes_hexBytes, hbs]

theorem StdAddress.toRaw_injective : Function.Injective StdAddress.toRaw := fun a b h => by
  have := StdAddress.parse_toRaw a
  rw [h, StdAddress.parse_toRaw b] at this
  exact (Except.ok.inj this).symm

/-- A `std::map` (or `std::unordered_map`) of the source. -/
abbrev StdMap (K V : Type) := K → Option V

namespace StdMap

variable {K V : Type}

def empty : StdMap K V := fun _ => none

@[simp] theorem empty_apply (k : K) : (empty : StdMap K V) k = none := rfl

variable [DecidableEq K]

/-- `emplace`: inserts only when the key is absent; an existing entry stays. -/
def emplace (m : StdMap K V) (k : K) (v : V) : StdMap K V :=
  fun k' => if k' = k then some ((m k).getD v) else m k'

def assign (m : StdMap K V) (k : K) (v : V) : StdMap K V :=
  fun k' => if k' = k then some v else m k'

theorem emplace_of_some {m : StdMap K V} {k k' : K} {v x : V} (h : m k' = some x) :
    m.emplace k v k' = some x := by
  by_cases hk : k' = k
  · subst hk; simp [emplace,h]
  · simp [emplace,hk,h]

theorem emplace_self_of_none {m : StdMap K V} {k : K} (v : V) (h : m k = none) :
    m.emplace k v k = some v := by
  simp [emplace,h]

@[simp] theorem emplace_ne {m : StdMap K V} {k k' : K} {v : V} (h : k' ≠ k) :
    m.emplace k v k' = m k' := by
  simp [emplace,h]

theorem emplace_eq_some {m : StdMap K V} {k k' : K} {v x : V} (h : m.emplace k v k' = some x) :
    m k' = some x ∨ (k' = k ∧ m k = none ∧ x = v) := by
  unfold emplace at h
  by_cases hk : k' = k
  · subst hk
    cases hm : m k' with
    | none => simp_all
    | some y => simp_all
  · simp_all

@[simp] theorem assign_self (m : StdMap K V) (k : K) (v : V) : m.assign k v k = some v := by
  simp [assign]

@[simp] theorem assign_ne {m : StdMap K V} {k k' : K} {v : V} (h : k' ≠ k) :
    m.assign k v k' = m k' := by
  simp [assign,h]

end StdMap

/-- The one-shot `td::Promise` of every request, by request id. The first
result stays: a later `set_value` or `set_error` finds the promise already
used and does nothing. -/
abbrev Promises (α : Type) := StdMap Nat (Except Status α)

def Promises.set {α : Type} (p : Promises α) (rid : Nat) (r : Except Status α) : Promises α :=
  StdMap.emplace p rid r

end TonIndex
