import SignalFoundry.Lattice.Tracking.Readback
import SignalFoundry.Library.Json.Parsed

/-!
# Canonical bytes

The byte budget of `_freeze_json` counts the bytes of the text that is written.
Bytes that are accepted as canonical are those of the document they are read to.
-/

namespace Tracking

open Fallible Json

/-! ## The byte budget -/

/-- `len(text.encode("utf-8"))`. -/
def textSize (cs : List Char) : ℕ := (PyText.encodeUtf8 (String.ofList cs)).length

theorem textSize_append (cs rest : List Char) :
    textSize (cs ++ rest) = textSize cs + textSize rest :=
  PyText.length_encodeUtf8_append cs rest

theorem textSize_cons {c : Char} (h : c.utf8Size = 1) (cs : List Char) :
    textSize (c :: cs) = textSize cs + 1 := by
  have hone : textSize [c] = 1 := PyText.length_encodeUtf8_ofList (by simpa using h)
  rw [← List.singleton_append, textSize_append, hone, Nat.add_comm]

variable {F : Type} [FloatText F]

mutual

/-- The budget of a value is the size of its text. -/
theorem weight_byteWeights : ∀ v : Json F,
    weight byteWeights v = textSize (v.writeWith escapeControl)
  | .null | .bool _ | .int _ | .float _ | .str _ => by
      simp only [weight]
      rfl
  | .arr [] => by
      rw [writeWith, textSize_cons (by decide), textSize_cons (by decide)]
      rfl
  | .arr (v :: rest) => by
      rw [writeWith, textSize_cons (by decide), textSize_append, ← weight_byteWeights v,
        ← itemsWeight_byteWeights rest, weight, itemsWeight]
      simp only [byteWeights, List.length_cons]
      omega
  | .obj [] => by
      rw [writeWith, textSize_cons (by decide), textSize_cons (by decide)]
      rfl
  | .obj ((k, v) :: rest) => by
      rw [writeWith, textSize_cons (by decide), textSize_append, textSize_cons (by decide),
        textSize_append, ← weight_byteWeights v, ← membersWeight_byteWeights rest, weight,
        membersWeight]
      simp only [byteWeights, encodedTextSize, textSize, List.length_cons]
      omega

theorem itemsWeight_byteWeights : ∀ items : List (Json F),
    itemsWeight byteWeights items + items.length + 1 =
      textSize (writeItemsWith escapeControl items)
  | [] => by
      rw [writeItemsWith, textSize_cons (by decide)]
      rfl
  | v :: rest => by
      rw [writeItemsWith, textSize_cons (by decide), textSize_append, ← weight_byteWeights v,
        ← itemsWeight_byteWeights rest, itemsWeight, List.length_cons]
      omega

theorem membersWeight_byteWeights : ∀ members : List (String × Json F),
    membersWeight byteWeights members + members.length + 1 =
      textSize (writeMembersWith escapeControl members)
  | [] => by
      rw [writeMembersWith, textSize_cons (by decide)]
      rfl
  | (k, v) :: rest => by
      rw [writeMembersWith, textSize_cons (by decide), textSize_append, textSize_cons (by decide),
        textSize_append, ← weight_byteWeights v, ← membersWeight_byteWeights rest, membersWeight,
        List.length_cons]
      simp only [byteWeights, encodedTextSize, textSize]
      omega

end

/-- The bytes of a document under `canonical_json`. -/
def canonicalBytes (v : Json F) : List UInt8 := PyText.encodeUtf8 v.dumpsUnicode

theorem length_canonicalBytes (v : Json F) :
    (canonicalBytes v).length = weight byteWeights v := by
  rw [← weight_sorted, weight_byteWeights]
  rfl

theorem canonicalBytes_eq_of_sorted {v w : Json F} (h : v.sorted = w.sorted) :
    canonicalBytes v = canonicalBytes w := by
  rw [canonicalBytes, canonicalBytes, dumpsUnicode, dumpsUnicode, h]

theorem length_canonicalBytes_pos {v : Json F} (h : v.Writable) :
    1 ≤ (canonicalBytes v).length := by
  obtain ⟨c, cs, htext, -⟩ : Starts (v.writeWith escapeControl) := starts_writeWith _ h
  have hone : textSize [c] = c.utf8Size := by
    simp [textSize, PyText.encodeUtf8, List.utf8Encode_singleton]
  rw [length_canonicalBytes, weight_byteWeights, htext, ← List.singleton_append, textSize_append,
    hone]
  exact c.utf8Size_pos.trans_le (Nat.le_add_right _ _)

/-! ## Reading bytes -/

variable [PyFloat F]

/-- Canonical bytes are those of a document without repeated keys. -/
theorem decodeBoundedBytes_eq_ok {bytes : List UInt8} {maximumBytes : ℕ} {v : Json F}
    (h : decodeBoundedBytes bytes maximumBytes true = .ok v) :
    v.Distinct ∧ Admitted v ∧ canonicalBytes v = bytes := by
  unfold decodeBoundedBytes at h
  split at h
  · cases h
  · next text hdecode =>
    simp only [decodeBoundedJson, bind_eq_ok_iff, mapError_eq_ok_iff, refuseIf_eq_ok_iff, true_and,
      not_not, Except.ok.injEq] at h
    obtain ⟨-, -, decoded, hloads, canonical, hcanonical, -, rfl, rfl⟩ := h
    obtain ⟨hadmitted, rfl⟩ := canonicalJson_eq_ok_iff.mp hcanonical
    have hobject : ∀ (members : List (String × Json F)) (w : Json F),
        strictHooks.objectPairs members = .ok w →
          (members.map Prod.fst).Nodup ∧ w = obj members := by
      intro members w hw
      simp only [strictHooks] at hw
      split_ifs at hw with hnodup
      exact ⟨hnodup, (Except.ok.inj hw).symm⟩
    have hconstant : ∀ (name : String) (w : Json F), strictHooks.parseConstant name ≠ .ok w :=
      fun _ _ hw => by cases hw
    exact ⟨distinct_loads hconstant hobject hloads, hadmitted,
      PyText.encodeUtf8_of_decodeUtf8 hdecode⟩

/-- The bytes of an admitted document are read back in the order of the keys. -/
theorem decodeBoundedBytes_canonicalBytes {v : Json F} (hwritable : v.Writable)
    (hadmitted : Admitted v) {maximumBytes : ℕ} (hmaximum : maximumBytes ≤ maxCanonicalJsonBytes)
    (hsize : (canonicalBytes v).length ≤ maximumBytes) (hnesting : nesting v ≤ maxJsonDepth)
    (htokens : weight tokenWeights v ≤ maxJsonStructuralTokens) :
    decodeBoundedBytes (canonicalBytes v) maximumBytes true = .ok v.sorted := by
  have hpositive := length_canonicalBytes_pos hwritable
  rw [decodeBoundedBytes, canonicalBytes, PyText.decodeUtf8_encodeUtf8]
  exact (decodeBoundedJson_canonicalJson_iff hwritable
    (canonicalJson_eq_ok_iff.mpr ⟨hadmitted, rfl⟩) ⟨hpositive.trans hsize, hmaximum⟩
    ⟨hpositive, hsize⟩ true).mpr ⟨hnesting, htokens⟩

end Tracking
