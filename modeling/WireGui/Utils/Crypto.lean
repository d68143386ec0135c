import WireGui.Lib.Base64

/-!
# `utils/crypto.py`

Keys are 32 bytes and are kept as text.  The public key is computed from the text of the private
key, and so may be computed again from what is stored (`derivePublicKey_generatePrivateKey`).
-/

namespace WireGui

open Base64

/-- Thirty-two bytes. -/
structure RawKey where
  bytes : List ℕ
  byte_lt : ∀ b ∈ bytes, b < 256
  length : bytes.length = 32

/-- Bytes that were read as a key. -/
def RawKey.ofBytes (bytes : List ℕ) : Option RawKey :=
  if h : (∀ b ∈ bytes, b < 256) ∧ bytes.length = 32 then some ⟨bytes, h.1, h.2⟩ else none

/-- `base64.b64encode(raw).decode()`. -/
def RawKey.text (raw : RawKey) : String := String.ofList (b64encode raw.bytes)

/-- `generate_private_key`, with the bytes that it draws. -/
def generatePrivateKey (raw : RawKey) : String := raw.text

/-- `generate_preshared_key`, with the bytes that it draws. -/
def generatePresharedKey (raw : RawKey) : String := raw.text

section Keys

variable (x25519 : RawKey → RawKey)

/-- `derive_public_key`; `none` is a `ValueError`. -/
def derivePublicKey (privateKey : String) : Option String := do
  let raw ← b64decode privateKey.toList
  let key ← RawKey.ofBytes raw
  return (x25519 key).text

/-- `generate_keypair`. -/
def generateKeypair (raw : RawKey) : Option (String × String) := do
  let privateKey := generatePrivateKey raw
  let publicKey ← derivePublicKey x25519 privateKey
  return (privateKey, publicKey)

variable {x25519} {raw : RawKey}

lemma length_text (raw : RawKey) : raw.text.toList.length = 44 := by
  rw [RawKey.text, String.toList_ofList, length_b64encode, raw.length]

lemma text_ne_empty (raw : RawKey) : raw.text ≠ "" := by
  intro h
  have hlen := length_text raw
  rw [h] at hlen
  cases hlen

lemma newline_notMem_text (raw : RawKey) : '\n' ∉ raw.text.toList := by
  intro h
  rw [RawKey.text, String.toList_ofList] at h
  rcases mem_alphabet_of_mem_b64encode h with hc | hc
  · exact absurd hc (by decide)
  · exact absurd hc (by decide)

/-- **The public key** of a private key that was kept as text. -/
theorem derivePublicKey_generatePrivateKey :
    derivePublicKey x25519 (generatePrivateKey raw) = some (x25519 raw).text := by
  have hread : b64decode (generatePrivateKey raw).toList = some raw.bytes := by
    rw [generatePrivateKey, RawKey.text, String.toList_ofList, b64decode_b64encode raw.byte_lt]
  have hkey : RawKey.ofBytes raw.bytes = some raw := dif_pos ⟨raw.byte_lt, raw.length⟩
  rw [derivePublicKey, hread, Option.bind_eq_bind, Option.bind_some, hkey]
  rfl

lemma generateKeypair_eq (raw : RawKey) :
    generateKeypair x25519 raw = some (raw.text, (x25519 raw).text) := by
  rw [generateKeypair, derivePublicKey_generatePrivateKey]
  rfl

end Keys

end WireGui
