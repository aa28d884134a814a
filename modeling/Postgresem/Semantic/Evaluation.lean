import Postgresem.Foundation.JsonBytes
import Postgresem.Semantic.HashText
import Postgresem.Semantic.Serialization

/-! Hashes of closed documents, evaluated on bytes instead of texts. -/
namespace Postgresem

/-- The ASCII code of a lower-case hexadecimal digit. -/
def hexCode (nibble : Nat) : Nat := if nibble < 10 then 48 + nibble else 87 + nibble

def hexCodes (byte : Nat) : List Nat := [hexCode (byte % 256 / 16), hexCode (byte % 256 % 16)]

def digestBytes (s : Sha256.State) : List Nat :=
  [s.a, s.b, s.c, s.d, s.e, s.f, s.g, s.h].flatMap Sha256.bytesOfWord

/-- The codes of the text that `HashBackend.sha256` writes for the standard backend. -/
def hashCodes (bytes : List UInt8) : List Nat :=
  [115, 104, 97, 50, 53, 54, 58] ++ (digestBytes (Sha256.evaluateWords bytes)).flatMap hexCodes

theorem utf8_hexDigit : ∀ nibble < 16,
    (String.utf8EncodeChar (hexDigit nibble)).map UInt8.toNat = [hexCode nibble] := by
  decide

theorem utf8_hexByte (byte : Nat) :
    ((hexByte (UInt8.ofNat byte)).flatMap String.utf8EncodeChar).map UInt8.toNat =
      hexCodes byte := by
  have hlow := utf8_hexDigit (byte % 256 % 16) (Nat.mod_lt _ (by decide))
  have hhigh := utf8_hexDigit (byte % 256 / 16) (by omega)
  simp only [hexByte, UInt8.toNat_ofNat', List.flatMap_cons, List.flatMap_nil, List.append_nil,
    List.map_append]
  rw [hhigh, hlow]
  rfl

theorem stateBytes_toList (s : Sha256.State) :
    (Vector.ofFn fun index : Fin 32 => UInt8.ofNat ((digestBytes s).getD index.1 0)).toList =
      (digestBytes s).map UInt8.ofNat := by
  have hlength : (digestBytes s).length = 32 := rfl
  generalize digestBytes s = output at hlength
  apply List.ext_getElem
  · rw [Vector.length_toList, List.length_map, hlength]
  · intro index hleft hright
    rw [List.length_map] at hright
    rw [Vector.getElem_toList, Vector.getElem_ofFn, List.getElem_map,
      List.getD_eq_getElem?_getD, List.getElem?_eq_getElem hright, Option.getD_some]

theorem digest_toList (bytes : List UInt8) :
    (Sha256.digest bytes).toList =
      (digestBytes (Sha256.digestWords bytes)).map UInt8.ofNat := by
  rw [Sha256.digest]
  exact stateBytes_toList (Sha256.digestWords bytes)

theorem sha256_codes (bytes : List UInt8) :
    (Utf8.bytes (standardHash.sha256 bytes)).map UInt8.toNat = hashCodes bytes := by
  have hscheme : (Utf8.bytes "sha256:").map UInt8.toNat = [115, 104, 97, 50, 53, 54, 58] := rfl
  have hdigest : standardHash.digest bytes = Sha256.digest bytes := rfl
  rw [HashBackend.sha256, Utf8.bytes_append, List.map_append, hscheme, hashCodes, hdigest,
    digest_toList, Utf8.bytes_ofList, Sha256.evaluateWords_eq]
  generalize digestBytes (Sha256.digestWords bytes) = output
  congr 1
  induction output with
  | nil => rfl
  | cons byte output ih =>
    rw [List.map_cons, List.flatMap_cons, List.flatMap_append, List.map_append, utf8_hexByte, ih,
      List.flatMap_cons]

/-- A hash is known from its codes. -/
theorem sha256_of_codes {bytes : List UInt8} {text : String}
    (h : hashCodes bytes = (Utf8.bytes text).map UInt8.toNat) :
    standardHash.sha256 bytes = text := by
  have hinjective : Function.Injective (List.map UInt8.toNat) :=
    List.map_injective_iff.mpr fun _ _ => UInt8.toNat_inj.mp
  apply Utf8.bytes_injective
  apply hinjective
  rw [sha256_codes, h]

theorem bytesOf_text (value : Json.Value) : bytesOf value.text = value.emit [] := by
  rw [Json.Value.emit_eq, List.append_nil]
  rfl

theorem published_of_codes {snapshot : SemanticSnapshot}
    (h : hashCodes ({ snapshot.normalized with revisionHash := "" }.toValue.emit []) =
      (Utf8.bytes snapshot.revisionHash).map UInt8.toNat) :
    snapshot.calculateRevisionHash standardHash = some snapshot.revisionHash := by
  have hjson : ∀ other : SemanticSnapshot,
      standardHash.snapshotJson other = some (other.toValue.emit []) := by
    intro other
    rw [← bytesOf_text, other.toValue_text]
    rfl
  rw [SemanticSnapshot.calculateRevisionHash, hjson, Option.map_some, sha256_of_codes h]

end Postgresem
