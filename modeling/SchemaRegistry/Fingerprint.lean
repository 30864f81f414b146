import SchemaRegistry.Sha256
import SchemaRegistry.Json.Codec
import SchemaRegistry.Json.Printer

/-!
# Fingerprints

A fingerprint is the SHA-256 hash of a content, in hexadecimal. The content of a JSON value is its
canonical text: compact, with the members of every object in key order.
-/

namespace SchemaRegistry

/-- The hexadecimal text of a hash. A fingerprint that was read from somewhere may be any text; it then
belongs to no content. -/
structure Fingerprint where
  text : String
deriving DecidableEq

namespace Fingerprint

/-- A byte as two hexadecimal digits, lower case. -/
def hexByte (b : UInt8) : List Char := [Text.hexDigit (b.toNat / 16), Text.hexDigit b.toNat]

/-- The fingerprint of bytes. -/
def ofBytes (bytes : List UInt8) : Fingerprint :=
  ⟨String.ofList ((Sha256.digest bytes).flatMap hexByte)⟩

/-- The canonical text of a JSON value. -/
def canonical (v : Json.Value) : String := v.sortKeys.compact

/-- The fingerprint of a JSON value. -/
def ofValue (v : Json.Value) : Fingerprint := ofBytes (canonical v).toUTF8.toList

/-- Whether this is the fingerprint of a JSON value. -/
def verifies (f : Fingerprint) (v : Json.Value) : Bool := ofValue v == f

/-- A fingerprint is represented by its text. -/
def codec : Json.Codec Fingerprint where
  write f := .text f.text
  read s t := (Json.Reader.string s t).map Fingerprint.mk

end Fingerprint

end SchemaRegistry
