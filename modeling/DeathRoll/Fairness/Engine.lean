import DeathRoll.Core.Types
import Mathlib.Data.List.Basic

/-! # The randomness engine

The pure part of `deathroll_core.fairness`: the HMAC message, the extension of a
digest to the bytes a game asks for, and the client seeds that can be stored.
The message joins two fields with a colon and no framing, so what keeps it
injective is that no client seed contains one.
-/

namespace DeathRoll

/-- The two functions taken from `hmac` and `hashlib`. -/
structure Crypto where
  hmacSha512 : Bytes → Bytes → Bytes
  sha256 : Bytes → Bytes

/-- `text.encode()`. -/
def encodeUtf8 (text : String) : Bytes := text.toByteArray.data.toList

/-- `f"{client_seed}:{nonce}"`. -/
def fairnessMessage (clientSeed : String) (nonce : Int) : String :=
  clientSeed ++ ":" ++ nonce.repr

def compute (crypto : Crypto) (serverSeed : Bytes) (clientSeed : String) (nonce : Int) : Bytes :=
  crypto.hmacSha512 serverSeed (encodeUtf8 (fairnessMessage clientSeed nonce))

/-- `counter.to_bytes(4, "big")`, which raises on a counter that does not fit. -/
def counterBytes (counter : Nat) : Option Bytes :=
  if counter < 2 ^ 32 then
    some [UInt8.ofNat (counter / 2 ^ 24), UInt8.ofNat (counter / 2 ^ 16),
      UInt8.ofNat (counter / 2 ^ 8), UInt8.ofNat counter]
  else none

/-- The loop of `_extend`, for at most `fuel` chunks. -/
def extendLoop (crypto : Crypto) (out : Bytes) (byteCount : Nat) :
    Nat → Nat → Bytes → Option Bytes
  | fuel, counter, extended =>
      if extended.length < byteCount then
        match fuel with
        | 0 => none
        | fuel + 1 => do
            let suffix ← counterBytes (counter + 1)
            extendLoop crypto out byteCount fuel (counter + 1)
              (extended ++ crypto.sha256 (out ++ suffix))
      else some (extended.take byteCount)

/-- `_extend`. A chunk adds at least one byte, so `byteCount` chunks are enough. -/
def extend (crypto : Crypto) (out : Bytes) (byteCount : Nat) : Option Bytes :=
  if byteCount ≤ out.length then some (out.take byteCount)
  else extendLoop crypto out byteCount byteCount 0 out

/-- One step of the character class `[A-Za-z0-9_\-]`. -/
def clientSeedChar (c : Char) : Bool := c.isAlphanum || c == '_' || c == '-'

/-- `CLIENT_SEED_REGEX.fullmatch(value)`. -/
def MatchesClientSeedRegex (value : String) : Prop :=
  (∀ c ∈ value.toList, clientSeedChar c) ∧ 1 ≤ value.toList.length ∧ value.toList.length ≤ 64

instance (value : String) : Decidable (MatchesClientSeedRegex value) :=
  @instDecidableAnd _ _ (List.decidableBAll _ _) instDecidableAnd

/-- `encode(bytes, 'hex')`. -/
def encodeHex (bytes : Bytes) : String :=
  String.ofList (bytes.flatMap fun byte =>
    [Nat.digitChar (byte.toNat / 16), Nat.digitChar (byte.toNat % 16)])

/-! ## The extension returns -/

section Extend

variable {crypto : Crypto} {out : Bytes} {byteCount : Nat}

theorem extendLoop_returns (hdigest : ∀ input, (crypto.sha256 input).length = 32) :
    ∀ (fuel counter : Nat) (extended : Bytes), byteCount ≤ extended.length + fuel →
      byteCount ≤ extended.length + 32 * (2 ^ 32 - 1 - counter) →
      ∃ bytes, extendLoop crypto out byteCount fuel counter extended = some bytes ∧
        bytes.length = byteCount ∧ extended.take byteCount <+: bytes := by
  intro fuel
  induction fuel with
  | zero =>
      intro counter extended hfuel _
      have henough : ¬ extended.length < byteCount := by omega
      rw [extendLoop, if_neg henough]
      exact ⟨_, rfl, by simp; omega, List.prefix_rfl⟩
  | succ fuel ih =>
      intro counter extended hfuel hcounter
      rw [extendLoop]
      by_cases hmore : extended.length < byteCount
      · have hfits : counter + 1 < 2 ^ 32 := by omega
        simp only [hmore, ↓reduceIte, counterBytes, hfits, Option.bind_eq_bind, Option.bind_some]
        generalize hchunk : crypto.sha256 _ = chunk
        have hlength : chunk.length = 32 := hchunk ▸ hdigest _
        obtain ⟨bytes, hbytes, hcount, hinitial⟩ := ih (counter + 1) (extended ++ chunk)
          (by rw [List.length_append]; omega) (by rw [List.length_append]; omega)
        refine ⟨bytes, hbytes, hcount, List.IsPrefix.trans ?_ hinitial⟩
        rw [List.take_append]
        exact List.prefix_append _ _
      · rw [if_neg hmore]
        exact ⟨_, rfl, by simp; omega, List.prefix_rfl⟩

/-- A request that the four-byte counter can serve gets exactly the bytes it
asked for, and they start with the digest. -/
theorem extend_returns (hdigest : ∀ input, (crypto.sha256 input).length = 32)
    (hcount : byteCount ≤ out.length + 32 * (2 ^ 32 - 1)) :
    ∃ bytes, extend crypto out byteCount = some bytes ∧ bytes.length = byteCount ∧
      out.take byteCount <+: bytes := by
  unfold extend
  by_cases hshort : byteCount ≤ out.length
  · rw [if_pos hshort]
    exact ⟨_, rfl, by simp [hshort], List.prefix_rfl⟩
  · rw [if_neg hshort]
    exact extendLoop_returns hdigest byteCount 0 out (by omega) (by omega)

end Extend

/-! ## Client seeds and the message -/

theorem hexDigit_clientSeedChar {digit : Nat} (hdigit : digit < 16) :
    clientSeedChar (Nat.digitChar digit) := by
  decide +revert

/-- The default client seed passes the check that a chosen one has to pass. -/
theorem encodeHex_matches {bytes : Bytes} (hlength : bytes.length = 8) :
    MatchesClientSeedRegex (encodeHex bytes) := by
  have hdigits : (encodeHex bytes).toList.length = 16 := by
    simp [encodeHex, List.length_flatMap, hlength]
  refine ⟨fun c hc => ?_, by omega, by omega⟩
  rw [encodeHex, String.toList_ofList, List.mem_flatMap] at hc
  obtain ⟨byte, -, hc⟩ := hc
  have hbyte : byte.toNat < 256 := byte.toNat_lt
  rw [List.mem_cons, List.mem_singleton] at hc
  rcases hc with rfl | rfl
  · exact hexDigit_clientSeedChar (by omega)
  · exact hexDigit_clientSeedChar (by omega)

theorem colon_notMem {value : String} (hvalue : MatchesClientSeedRegex value) :
    ':' ∉ value.toList := fun hmem => by
  have hcolon := hvalue.1 ':' hmem
  revert hcolon
  decide

/-- A separator that is in neither first field splits a text in one way only. -/
theorem split_unique {α : Type*} {separator : α} {first first' rest rest' : List α}
    (hfirst : separator ∉ first) (hfirst' : separator ∉ first')
    (heq : first ++ separator :: rest = first' ++ separator :: rest') :
    first = first' ∧ rest = rest' := by
  induction first generalizing first' with
  | nil =>
      cases first' with
      | nil => exact ⟨rfl, List.tail_eq_of_cons_eq heq⟩
      | cons c tail' =>
          have hhead := List.head_eq_of_cons_eq heq
          exact absurd (hhead ▸ List.mem_cons_self) hfirst'
  | cons c tail ih =>
      cases first' with
      | nil =>
          have hhead := List.head_eq_of_cons_eq heq
          exact absurd (hhead ▸ List.mem_cons_self) hfirst
      | cons c' tail' =>
          simp only [List.cons_append, List.cons.injEq] at heq
          simp only [List.mem_cons, not_or] at hfirst hfirst'
          have htails := ih hfirst.2 hfirst'.2 heq.2
          exact ⟨by rw [heq.1, htails.1], htails.2⟩

theorem nat_repr_injective {m n : Nat} (h : m.repr = n.repr) : m = n := by
  have hdigits : Nat.toDigits 10 m = Nat.toDigits 10 n := String.ofList_injective h
  calc
    m = Nat.ofDigitChars 10 (Nat.toDigits 10 m) 0 := Nat.ofDigitChars_ten_toDigits.symm
    _ = Nat.ofDigitChars 10 (Nat.toDigits 10 n) 0 := by rw [hdigits]
    _ = n := Nat.ofDigitChars_ten_toDigits

/-- No decimal starts with a minus sign. -/
theorem nat_repr_ne_neg (m n : Nat) : m.repr ≠ "-" ++ n.repr := by
  intro h
  have htexts : Nat.toDigits 10 m = '-' :: n.repr.toList := by
    have hlists := congrArg String.toList h
    rwa [String.toList_append, Nat.repr, String.toList_ofList] at hlists
  have hmem : '-' ∈ Nat.toDigits 10 m := by rw [htexts]; exact List.mem_cons_self
  have hdigit := Nat.isDigit_of_mem_toDigits (by decide) (by decide) hmem
  revert hdigit
  decide

theorem int_repr_injective {m n : Int} (h : m.repr = n.repr) : m = n := by
  cases m with
  | ofNat m =>
      cases n with
      | ofNat n => exact congrArg Int.ofNat (nat_repr_injective h)
      | negSucc n => exact absurd h (nat_repr_ne_neg m _)
  | negSucc m =>
      cases n with
      | ofNat n => exact absurd h.symm (nat_repr_ne_neg n _)
      | negSucc n =>
          have hsucc := nat_repr_injective (String.append_right_inj "-" |>.mp h)
          exact congrArg Int.negSucc (Nat.succ.inj hsucc)

theorem encodeUtf8_injective {text text' : String} (h : encodeUtf8 text = encodeUtf8 text') :
    text = text' := by
  apply String.toByteArray_inj.mp
  exact ByteArray.ext (Array.toList_inj.mp h)

/-- The HMAC message tells the client seed and the nonce apart. -/
theorem fairnessMessage_injective {clientSeed clientSeed' : String} {nonce nonce' : Int}
    (hseed : MatchesClientSeedRegex clientSeed) (hseed' : MatchesClientSeedRegex clientSeed')
    (h : encodeUtf8 (fairnessMessage clientSeed nonce) =
      encodeUtf8 (fairnessMessage clientSeed' nonce')) :
    clientSeed = clientSeed' ∧ nonce = nonce' := by
  have hlists := congrArg String.toList (encodeUtf8_injective h)
  have hcolon : ":".toList = [':'] := rfl
  simp only [fairnessMessage, String.toList_append, hcolon, List.append_assoc,
    List.singleton_append] at hlists
  obtain ⟨hclient, hnonce⟩ := split_unique (colon_notMem hseed) (colon_notMem hseed') hlists
  exact ⟨String.toList_inj.mp hclient, int_repr_injective (String.toList_inj.mp hnonce)⟩

end DeathRoll
