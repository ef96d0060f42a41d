import GoTrace.Text.Octet

/-!
# Texts and their bytes

A text has one form as bytes, and is read back from it. So bytes are shown as the text that they are, if
they are one.
-/

namespace GoTrace.Text

theorem octets_eq (text : String) : octets text = text.toList.flatMap String.utf8EncodeChar := by
  rw [octets, ← String.utf8Encode_toList]
  exact List.toList_data_toByteArray

theorem toByteArray_octets (text : String) : (octets text).toByteArray = text.toByteArray := by
  rw [octets_eq]
  exact String.utf8Encode_toList

theorem ofOctets?_octets (text : String) : ofOctets? (octets text) = some text := by
  rw [ofOctets?, toByteArray_octets, String.fromUTF8?, dif_pos text.isValidUTF8]
  rfl

theorem octets_of_ofOctets? {octets : List UInt8} {text : String} (h : ofOctets? octets = some text) :
    Text.octets text = octets := by
  unfold ofOctets? String.fromUTF8? at h
  split at h
  · cases h
    exact List.toList_data_toByteArray
  · cases h

theorem octets_eq_nil_iff {text : String} : octets text = [] ↔ text = "" := by
  constructor
  · intro h
    have hread := ofOctets?_octets text
    rw [h] at hread
    exact (Option.some.inj hread).symm
  · rintro rfl
    rfl

theorem exists_texts {names : List (List UInt8)} (h : ∀ name ∈ names, (ofOctets? name).isSome = true) :
    ∃ texts : List String, names = texts.map octets := by
  induction names with
  | nil => exact ⟨[], rfl⟩
  | cons name rest ih =>
      obtain ⟨hname, hrest⟩ := List.forall_mem_cons.mp h
      obtain ⟨text, htext⟩ := Option.isSome_iff_exists.mp hname
      obtain ⟨texts, rfl⟩ := ih hrest
      exact ⟨text :: texts, by rw [List.map_cons, octets_of_ofOctets? htext]⟩

theorem slash_mem_octets {text : String} (h : '/' ∈ text.toList) : Octet.slash ∈ octets text := by
  rw [octets_eq]
  exact List.mem_flatMap.mpr ⟨'/', h, by decide⟩

end GoTrace.Text
