import Mathlib.Algebra.Order.Ring.Int
import Mathlib.Data.List.Basic
import Mathlib.Tactic.Common

/-! Encryption of packets. AES in CBC mode and base64 are parameters; the tests on the
arguments, and what is returned without a key, are the code's own. -/
namespace CppToolkit.Utilities

/-- The library calls; an error is an exception (a key of the wrong size, bad padding). -/
structure Cipher where
  fromBase64 : List UInt8 → List UInt8
  encrypt (key iv data : List UInt8) : Except String (List UInt8)
  decrypt (key iv data : List UInt8) : Except String (List UInt8)

namespace Encryptor

/-- An exception, or the returned pair: a buffer, or `nullopt` and a message. -/
abbrev Coded := Except String (Except String (List UInt8))

/-- The tests and the base64 decoding that both directions share. -/
def withKey (cipher : Cipher) (apply : List UInt8 → List UInt8 → List UInt8 → Except String (List UInt8))
    (missing : String) (data keyString ivString : List UInt8) : Coded :=
  if data = [] then .ok (.error "the data field is empty.")
  else if keyString = [] ∨ ivString = [] then .ok (.error missing)
  else (apply (cipher.fromBase64 keyString) (cipher.fromBase64 ivString) data).map .ok

def encryption (cipher : Cipher) (originalData keyString ivString : List UInt8) : Coded :=
  withKey cipher cipher.encrypt
    "Key or IV is not provided. encryption cannot be performed." originalData keyString ivString

def decryption (cipher : Cipher) (encryptedData keyString ivString : List UInt8) : Coded :=
  withKey cipher cipher.decrypt
    "Key or IV is not provided. decryption cannot be performed." encryptedData keyString ivString

end Encryptor

/-- The contract under a valid key and IV: every plaintext is encrypted to something
that decrypts to it, and padding makes the ciphertext longer. -/
structure Cipher.Inverts (cipher : Cipher) (keyString ivString : List UInt8) : Prop where
  inverse : ∀ data, data ≠ [] → ∃ encrypted,
    cipher.encrypt (cipher.fromBase64 keyString) (cipher.fromBase64 ivString) data = .ok encrypted ∧
    data.length < encrypted.length ∧
    cipher.decrypt (cipher.fromBase64 keyString) (cipher.fromBase64 ivString) encrypted = .ok data

namespace Encryptor
variable {cipher : Cipher} {keyString ivString : List UInt8}

theorem withKey_present {apply : List UInt8 → List UInt8 → List UInt8 → Except String (List UInt8)}
    {missing : String} {data : List UInt8} (some : data ≠ []) (key : keyString ≠ [])
    (iv : ivString ≠ []) :
    withKey cipher apply missing data keyString ivString =
      (apply (cipher.fromBase64 keyString) (cipher.fromBase64 ivString) data).map .ok := by
  have present : ¬ (keyString = [] ∨ ivString = []) := fun absent => absent.elim key iv
  rw [withKey, if_neg some, if_neg present]

theorem encryption_round_trip (inverts : cipher.Inverts keyString ivString) (key : keyString ≠ [])
    (iv : ivString ≠ []) {data : List UInt8} (some : data ≠ []) :
    ∃ encrypted, encryption cipher data keyString ivString = .ok (.ok encrypted) ∧
      encrypted ≠ [] ∧ decryption cipher encrypted keyString ivString = .ok (.ok data) := by
  obtain ⟨encrypted, encrypts, longer, decrypts⟩ := inverts.inverse data some
  have nonempty : encrypted ≠ [] := List.ne_nil_of_length_pos (by omega)
  refine ⟨encrypted, ?_, nonempty, ?_⟩
  · rw [encryption, withKey_present some key iv, encrypts]
    rfl
  · rw [decryption, withKey_present nonempty key iv, decrypts]
    rfl

end Encryptor

namespace Cipher

/-- The base64 text of the bytes 0 to 31, and of the bytes 100 to 115. -/
def sampleKey : List UInt8 :=
  [65, 65, 69, 67, 65, 119, 81, 70, 66, 103, 99, 73, 67, 81, 111, 76, 68, 65, 48, 79, 68, 120, 65,
    82, 69, 104, 77, 85, 70, 82, 89, 88, 71, 66, 107, 97, 71, 120, 119, 100, 72, 104, 56, 61]

def sampleIv : List UInt8 :=
  [90, 71, 86, 109, 90, 50, 104, 112, 97, 109, 116, 115, 98, 87, 53, 118, 99, 72, 70, 121, 99, 119,
    61, 61]

/-- The packet of the message `hi`, and its AES-256-CBC ciphertext under that key and IV. -/
def samplePacket : List UInt8 := [1, 0, 0, 0, 0, 0, 0, 0, 2, 2, 0, 0, 0, 0, 0, 0, 0, 105, 104]

def sampleCiphertext : List UInt8 :=
  [5, 241, 85, 125, 102, 76, 183, 139, 140, 127, 70, 42, 180, 178, 197, 166, 103, 164, 56, 220, 213,
    96, 195, 143, 114, 159, 15, 69, 72, 75, 63, 216]

/-- The padding to whole blocks of sixteen bytes, and its removal. -/
def pad (data : List UInt8) : List UInt8 :=
  data ++ List.replicate (16 - data.length % 16) (UInt8.ofNat (16 - data.length % 16))

def unpad (data : List UInt8) : List UInt8 :=
  data.take (data.length - (data.getLast?.getD 0).toNat)

/-- A stand-in for examples: the library's results on the sample key and IV and on the
packets of the table, and padding alone on other data. -/
def known (results : List (List UInt8 × List UInt8)) : Cipher where
  fromBase64 := fun text =>
    if text = sampleKey then (List.range 32).map UInt8.ofNat
    else if text = sampleIv then (List.range 16).map fun n => UInt8.ofNat (100 + n)
    else []
  encrypt := fun _ _ data =>
    match results.find? fun result => result.1 = data with
    | some result => .ok result.2
    | none => .ok (pad data)
  decrypt := fun _ _ data =>
    match results.find? fun result => result.2 = data with
    | some result => .ok result.1
    | none => .ok (unpad data)

/-- The stand-in that knows the packet of `hi`. -/
def sample : Cipher := known [(samplePacket, sampleCiphertext)]

/-- A result that the stand-in can take back: longer than its packet, the first with its
ciphertext, and not the end of a padding. -/
def Distinct (results : List (List UInt8 × List UInt8)) : Prop :=
  ∀ result ∈ results, result.1.length < result.2.length ∧
    results.find? (fun other => other.2 = result.2) = some result ∧
    16 < (result.2.getLast?.getD 0).toNat

instance (results : List (List UInt8 × List UInt8)) : Decidable (Distinct results) :=
  inferInstanceAs (Decidable (∀ result ∈ results, _))

theorem pad_getLast (data : List UInt8) :
    (pad data).getLast? = some (UInt8.ofNat (16 - data.length % 16)) := by
  have less := Nat.mod_lt data.length (show 0 < 16 by decide)
  obtain ⟨count, same⟩ : ∃ count, 16 - data.length % 16 = count + 1 :=
    ⟨15 - data.length % 16, by omega⟩
  rw [pad, same, List.replicate_succ', ← List.append_assoc, List.getLast?_concat]

theorem unpad_pad (data : List UInt8) : unpad (pad data) = data := by
  have less := Nat.mod_lt data.length (show 0 < 16 by decide)
  have length : (pad data).length = data.length + (16 - data.length % 16) := by
    rw [pad, List.length_append, List.length_replicate]
  have count : (UInt8.ofNat (16 - data.length % 16)).toNat = 16 - data.length % 16 := by
    rw [UInt8.toNat_ofNat']
    omega
  rw [unpad, pad_getLast, length, Option.getD_some, count, Nat.add_sub_cancel, pad,
    List.take_left' rfl]

theorem length_lt_pad (data : List UInt8) : data.length < (pad data).length := by
  have less := Nat.mod_lt data.length (show 0 < 16 by decide)
  rw [pad, List.length_append, List.length_replicate]
  omega

theorem pad_getLast_le (data : List UInt8) : ((pad data).getLast?.getD 0).toNat ≤ 16 := by
  rw [pad_getLast, Option.getD_some, UInt8.toNat_ofNat']
  exact Nat.le_trans (Nat.mod_le _ _) (Nat.sub_le _ _)

/-- Padded data is the ciphertext of no packet in the table. -/
theorem find_pad {results : List (List UInt8 × List UInt8)} (distinct : Distinct results)
    (data : List UInt8) : results.find? (fun result => result.2 = pad data) = none := by
  refine List.find?_eq_none.mpr fun result member same => ?_
  have last := (distinct result member).2.2
  rw [of_decide_eq_true same] at last
  exact absurd (pad_getLast_le data) (Nat.not_le.mpr last)

theorem known_encrypts {results : List (List UInt8 × List UInt8)} (distinct : Distinct results)
    (key iv data : List UInt8) : ∃ encrypted, (known results).encrypt key iv data = .ok encrypted ∧
      data.length < encrypted.length ∧ (known results).decrypt key iv encrypted = .ok data := by
  cases found : results.find? fun result => result.1 = data with
  | none =>
      refine ⟨pad data, ?_, length_lt_pad data, ?_⟩
      · simp only [known, found]
      · simp only [known, find_pad distinct, unpad_pad]
  | some result =>
      have same : result.1 = data := by simpa using List.find?_some found
      obtain ⟨longer, first, _⟩ := distinct result (List.mem_of_find?_eq_some found)
      refine ⟨result.2, ?_, same ▸ longer, ?_⟩
      · simp only [known, found]
      · simp only [known, first, same]

theorem known_inverts {results : List (List UInt8 × List UInt8)} (distinct : Distinct results) :
    (known results).Inverts sampleKey sampleIv where
  inverse := fun data _ => known_encrypts distinct _ _ data

theorem distinct_sample : Distinct [(samplePacket, sampleCiphertext)] := by decide

theorem sample_inverts : sample.Inverts sampleKey sampleIv := known_inverts distinct_sample

end Cipher
end CppToolkit.Utilities
