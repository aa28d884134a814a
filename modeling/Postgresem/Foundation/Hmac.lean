import Postgresem.Foundation.Sha256

/-! HMAC with SHA-256, and the unpadded URL-safe base64 text of a byte list. -/
namespace Hmac
open Sha256

def blockSize : Nat := 64

/-- The key, hashed if it is longer than a block, and filled up with zeros. -/
def blockKey (key : List UInt8) : List UInt8 :=
  let short := if key.length > blockSize then (digest key).toList else key
  short ++ List.replicate (blockSize - short.length) 0

def sha256 (key message : List UInt8) : Vector UInt8 32 :=
  let inner := digest ((blockKey key).map (· ^^^ 0x36) ++ message)
  digest ((blockKey key).map (· ^^^ 0x5c) ++ inner.toList)

end Hmac

namespace Base64

def alphabet : List Char :=
  "ABCDEFGHIJKLMNOPQRSTUVWXYZabcdefghijklmnopqrstuvwxyz0123456789-_".toList

def symbol (sextet : Nat) : Char := alphabet.getD (sextet % 64) 'A'

def encodeChars : List Nat → List Char
  | a :: b :: c :: rest =>
    let bits := a * 65536 + b * 256 + c
    symbol (bits / 262144) :: symbol (bits / 4096) :: symbol (bits / 64) :: symbol bits
      :: encodeChars rest
  | [a, b] =>
    let bits := a * 65536 + b * 256
    [symbol (bits / 262144), symbol (bits / 4096), symbol (bits / 64)]
  | [a] => [symbol (a * 65536 / 262144), symbol (a * 65536 / 4096)]
  | [] => []

def encode (bytes : List UInt8) : String := String.ofList (encodeChars (bytes.map UInt8.toNat))

theorem symbol_mem_alphabet (sextet : Nat) : symbol sextet ∈ alphabet := by
  have hlength : alphabet.length = 64 := by decide
  have hlt : sextet % 64 < alphabet.length := by
    rw [hlength]
    exact Nat.mod_lt _ (by decide)
  rw [symbol, List.getD_eq_getElem?_getD, List.getElem?_eq_getElem hlt]
  exact List.getElem_mem hlt

theorem encodeChars_mem {bytes : List Nat} {c : Char} (h : c ∈ encodeChars bytes) :
    c ∈ alphabet := by
  fun_induction encodeChars bytes with
  | case1 a b d rest bits ih =>
    simp only [List.mem_cons] at h
    rcases h with rfl | rfl | rfl | rfl | h
    · exact symbol_mem_alphabet _
    · exact symbol_mem_alphabet _
    · exact symbol_mem_alphabet _
    · exact symbol_mem_alphabet _
    · exact ih h
  | case2 a b bits =>
    simp only [List.mem_cons, List.not_mem_nil, or_false] at h
    rcases h with rfl | rfl | rfl <;> exact symbol_mem_alphabet _
  | case3 a =>
    simp only [List.mem_cons, List.not_mem_nil, or_false] at h
    rcases h with rfl | rfl <;> exact symbol_mem_alphabet _
  | case4 => cases h

theorem encodeChars_ne_nil {bytes : List Nat} (h : bytes ≠ []) : encodeChars bytes ≠ [] := by
  match bytes with
  | _ :: _ :: _ :: _ => simp [encodeChars]
  | [_, _] => simp [encodeChars]
  | [_] => simp [encodeChars]
  | [] => exact absurd rfl h

end Base64
