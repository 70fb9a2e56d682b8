import Synqro.Lib.JsonText
import Synqro.Lib.JsonReorder
import Synqro.Lib.FileTree

/-!
# Encodings

The text and byte encodings the engine shares: UTF-8, hexadecimal digests, the `json!` macro,
canonical JSON (`canonical_json`, `canonical_json_sorted`) and the comparison of tags
(`constant_time_eq`), which `src/audit.rs`, `src/downloader.rs` and `src/rollback.rs` each define
alike.
-/

namespace Synqro

/-- The bytes of a string. -/
def utf8 (s : String) : Bytes := s.toUTF8.data.toList

/-- The string of some bytes, when they are UTF-8. -/
def fromUtf8? (b : Bytes) : Option String := String.fromUTF8? ⟨b.toArray⟩

/-- `hex::encode`. -/
def hexEncode (b : Bytes) : String :=
  String.ofList (b.flatMap fun x => [Nat.digitChar (x.toNat / 16), Nat.digitChar (x.toNat % 16)])

/-- The `json!` macro on an object: the map of its members, with their values as maps too. -/
def jsonObject (ms : List (String × Json)) : Json := Json.value (.obj ms)

def jsonU32 (n : UInt32) : Json := .num (.posInt n.toUInt64)

/-- A length as a JSON number. -/
def jsonLen (n : Nat) : Json := .num (.posInt (UInt64.ofNat n))

/-- The bytes of a text. -/
def encodeUtf8 (cs : List Char) : Bytes := cs.flatMap String.utf8EncodeChar

/-- The text of UTF-8 bytes. -/
def decodeUtf8? (b : Bytes) : Option (List Char) :=
  if b.all (· < 128) then some (b.map fun x => Char.ofNat x.toNat)
  else (fromUtf8? b).map String.toList

/-- `serde_json::to_string`: the characters of the text. -/
def toJsonString (j : Json) : List Char := Json.printWith Json.compact 0 j

/-- `serde_json::to_vec_pretty`. -/
def toVecPretty (j : Json) : Bytes := encodeUtf8 (Json.printWith Json.pretty 0 j)

/-- Canonical JSON with sorted keys; printing a value does not fail. -/
def canonicalJsonSorted (value : Json) : List Char := toJsonString value.sortKeys

/-- `u32::saturating_add(1)`. -/
def saturatingSucc (n : UInt32) : UInt32 := if n = UInt32.ofNat (2 ^ 32 - 1) then n else n + 1

/-- Byte-slice equality without an early exit. -/
def constantTimeEq (a b : Bytes) : Bool :=
  if a.length ≠ b.length then false
  else (a.zip b).foldl (fun diff p => diff ||| (p.1 ^^^ p.2)) 0 == 0

/-! ## What the encodings determine -/

theorem utf8_inj {s t : String} (h : utf8 s = utf8 t) : s = t := by
  rw [← String.toByteArray_inj]
  exact ByteArray.ext (Array.toList_inj.1 h)

theorem utf8_ofList (cs : List Char) : utf8 (String.ofList cs) = encodeUtf8 cs :=
  List.toList_data_toByteArray

theorem encodeUtf8_inj {cs ds : List Char} (h : encodeUtf8 cs = encodeUtf8 ds) : cs = ds := by
  rw [← utf8_ofList, ← utf8_ofList] at h
  exact String.ofList_inj.1 (utf8_inj h)

theorem fromUtf8?_utf8 (s : String) : fromUtf8? (utf8 s) = some s := by
  have hb : (⟨(utf8 s).toArray⟩ : ByteArray) = s.toUTF8 := rfl
  have hv : s.toUTF8.IsValidUTF8 := s.isValidUTF8
  rw [fromUtf8?, hb, String.fromUTF8?, dif_pos hv]
  rfl

theorem not_ofNat_lt {n : Nat} (h : 128 ≤ n) (hlt : n < 256) : ¬ UInt8.ofNat n < 128 := by
  rw [UInt8.lt_iff_toNat_lt, UInt8.toNat_ofNat', Nat.mod_eq_of_lt hlt]
  exact not_lt.2 h

/-- A character encoded below 128 is one byte, its code. -/
theorem map_utf8EncodeChar {c : Char} (h : (String.utf8EncodeChar c).all (· < 128) = true) :
    (String.utf8EncodeChar c).map (fun x => Char.ofNat x.toNat) = [c] := by
  have hfirst {n : Nat} {bs : Bytes} (hn : 128 ≤ n) (hlt : n < 256)
      (hall : (UInt8.ofNat n :: bs).all (· < 128) = true) : False :=
    not_ofNat_lt hn hlt (by simpa using List.all_eq_true.1 hall _ (.head _))
  unfold String.utf8EncodeChar at *
  dsimp only at *
  split at h
  · next hc =>
    have hlt : c.val.toNat < 2 ^ 8 := Nat.lt_of_le_of_lt hc (by decide)
    rw [if_pos hc, List.map_cons, List.map_nil, UInt8.toNat_ofNat', Nat.mod_eq_of_lt hlt]
    exact congrArg (fun d => [d]) (Char.ofNat_toNat c)
  · exfalso
    split at h
    · exact hfirst (by omega) (by omega) h
    · split at h
      · exact hfirst (by omega) (by omega) h
      · exact hfirst (by omega) (by omega) h

/-- A text survives its encoding. -/
@[simp] theorem decodeUtf8?_encodeUtf8 (cs : List Char) :
    decodeUtf8? (encodeUtf8 cs) = some cs := by
  unfold decodeUtf8?
  split
  · next h =>
    congr 1
    induction cs with
    | nil => rfl
    | cons c cs ih =>
      have hcons : encodeUtf8 (c :: cs) = String.utf8EncodeChar c ++ encodeUtf8 cs := rfl
      rw [hcons, List.all_append, Bool.and_eq_true] at h
      rw [hcons, List.map_append, map_utf8EncodeChar h.1, ih h.2, List.singleton_append]
  · rw [← utf8_ofList, fromUtf8?_utf8, Option.map_some, String.toList_ofList]

theorem toJsonString_inj {i j : Json} (h : toJsonString i = toJsonString j) : i = j :=
  Json.printWith_inj h

/-- Canonical JSON identifies values: two values whose objects repeat no key have the same text
exactly when they differ in the order of object members only, at any depth. -/
theorem canonicalJsonSorted_eq_iff {a b : Json} (ha : a.Unique) (hb : b.Unique) :
    canonicalJsonSorted a = canonicalJsonSorted b ↔ Json.Reorders a b := by
  have htext : canonicalJsonSorted a = canonicalJsonSorted b ↔ a.sortKeys = b.sortKeys :=
    ⟨toJsonString_inj, congrArg toJsonString⟩
  refine htext.trans ⟨fun h => ?_, fun h => (Json.sortKeys_eq_iff ha).2 h⟩
  exact ((Json.sortKeys_eq_iff hb).1 h.symm).symm

theorem canonicalJsonSorted_eq_iff_swapped :
    canonicalJsonSorted (.arr [.obj [("b", .null), ("a", .str "x")]]) =
      canonicalJsonSorted (.arr [.obj [("a", .str "x"), ("b", .null)]]) :=
  (canonicalJsonSorted_eq_iff (by simp) (by simp)).2 (.elem [] [] (.members (.swap _ _ _)))

theorem foldl_diff_eq_zero {ps : List (UInt8 × UInt8)} {d : UInt8} :
    ps.foldl (fun diff p => diff ||| (p.1 ^^^ p.2)) d = 0 ↔ d = 0 ∧ ∀ p ∈ ps, p.1 = p.2 := by
  induction ps generalizing d with
  | nil => simp
  | cons p ps ih =>
    rw [List.foldl_cons, ih, UInt8.or_eq_zero_iff]
    have : p.1 ^^^ p.2 = 0 ↔ p.1 = p.2 := UInt8.xor_eq_zero_iff
    simp [this, and_assoc]

theorem zip_all_eq {a b : Bytes} (hl : a.length = b.length) :
    (∀ p ∈ a.zip b, p.1 = p.2) ↔ a = b := by
  induction a generalizing b with
  | nil => cases b <;> simp_all
  | cons x a ih =>
    cases b with
    | nil => simp at hl
    | cons y b =>
      have := ih (b := b) (by simpa using hl)
      simp only [List.zip_cons_cons, List.forall_mem_cons, this, List.cons.injEq]

/-- The comparison is equality. -/
theorem constantTimeEq_iff {a b : Bytes} : constantTimeEq a b = true ↔ a = b := by
  unfold constantTimeEq
  split
  · next h =>
    refine ⟨nofun, ?_⟩
    rintro rfl
    exact absurd rfl h
  · next h =>
    rw [beq_iff_eq, foldl_diff_eq_zero, zip_all_eq (not_not.1 h)]
    simp

end Synqro
