import SchemaRegistry.Fingerprint
import SchemaRegistry.Proofs.Json.Spelling
import SchemaRegistry.Proofs.Text.Bytes

/-!
# Fingerprints as a function of the content

Nothing is lost on the way from a canonical text to the hash function, nor on the way from the hash to the
fingerprint: the bytes determine the text (`content_eq_iff`), and the fingerprint determines the hash
(`ofBytes_eq_iff`). So contents with the same fingerprint have the same canonical text, or their hashes
collide (`verifies_iff_digest_eq`). Of the hash function itself nothing is used.
-/

namespace SchemaRegistry

namespace Fingerprint

/-! ## From the value to the bytes -/

/-- The bytes of which the hash is taken. -/
def content (v : Json.Value) : List UInt8 := (canonical v).toUTF8.toList

theorem ofValue_eq (v : Json.Value) : ofValue v = ofBytes (content v) := rfl

/-- The bytes determine the canonical text. -/
theorem content_eq_iff {v w : Json.Value} : content v = content w ↔ canonical v = canonical w := by
  constructor
  · intro h
    exact String.toByteArray_inj.1 (toList_inj h)
  · intro h
    rw [content, h, ← content]

/-! ## From the hash to the fingerprint -/

theorem hexByte_inj {b c : UInt8} (h : hexByte b = hexByte c) : b = c := by
  obtain ⟨hhigh, hrest⟩ := List.cons.inj h
  have hlow := (List.cons.inj hrest).1
  have hhigh' := congrArg Text.hexValue? hhigh
  have hlow' := congrArg Text.hexValue? hlow
  rw [Json.hexValue?_hexDigit, Json.hexValue?_hexDigit, Option.some_inj] at hhigh' hlow'
  have hb := b.toNat_lt
  have hc := c.toNat_lt
  have heq : b.toNat = c.toNat := by omega
  exact UInt8.toNat_inj.1 heq

theorem flatMap_hexByte_inj {bs cs : List UInt8} (h : bs.flatMap hexByte = cs.flatMap hexByte) :
    bs = cs := by
  induction bs generalizing cs with
  | nil =>
    cases cs with
    | nil => rfl
    | cons c cs => cases h
  | cons b bs ih =>
    cases cs with
    | nil => cases h
    | cons c cs =>
      -- each byte has two digits, so the first two belong to the first bytes
      have hlength : (hexByte b).length = (hexByte c).length := rfl
      obtain ⟨hfirst, hrest⟩ := List.append_inj h hlength
      rw [hexByte_inj hfirst, ih hrest]

/-- The fingerprint determines the hash. -/
theorem ofBytes_eq_iff {bytes bytes' : List UInt8} :
    ofBytes bytes = ofBytes bytes' ↔ Sha256.digest bytes = Sha256.digest bytes' := by
  constructor
  · intro h
    exact flatMap_hexByte_inj (String.ofList_injective (congrArg Fingerprint.text h))
  · intro h
    rw [ofBytes, h, ← ofBytes]

theorem verifies_iff {f : Fingerprint} {v : Json.Value} : f.verifies v = true ↔ ofValue v = f :=
  beq_iff_eq

theorem verifies_ofValue (v : Json.Value) : (ofValue v).verifies v = true := verifies_iff.2 rfl

/-- The fingerprint of one value is that of another one if and only if the hashes are the same. -/
theorem verifies_iff_digest_eq {f : Fingerprint} {v w : Json.Value} (h : f.verifies v = true) :
    f.verifies w = true ↔ Sha256.digest (content v) = Sha256.digest (content w) := by
  rw [verifies_iff] at h ⊢
  rw [← h, ofValue_eq, ofValue_eq, ofBytes_eq_iff, eq_comm]

end Fingerprint

end SchemaRegistry
