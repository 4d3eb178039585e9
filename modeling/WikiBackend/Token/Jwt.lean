import WikiBackend.Codec.JsonText
import WikiBackend.Token.Authentic
import WikiBackend.Token.Spellings

/-! A payload reads the same as plain JSON and inside a JWT, and neither is taken for the other. -/

namespace WikiBackend

def IsSegment (s : String) : Prop :=
  ∀ c ∈ s.toList, ∃ v < 64, c = Base64.toUrlSafe (Base64.encodeChar v)

/-- What `json.loads` does with a text: it refuses what is not JSON, and what it accepts it reads
alike from the bytes of the text. -/
structure Library.ReadsJson (L : Library) : Prop where
  rejects : ∀ text, ¬JsonText.Text text.toList → L.jsonLoads text = .error .jsonDecodeError
  bytes : ∀ text v, L.jsonLoads text = .ok v → L.jsonLoadsBytes (encodeUtf8 text) = .ok v

def base64url (padded : Bool) (data : Bytes) : String :=
  String.ofList (Base64.Spelling.encode ⟨true, padded⟩ data)

def jwt (header segment signature : String) : String :=
  header ++ "." ++ segment ++ "." ++ signature

section
open Base64
variable {L : Library} {header signature text : String} {payload : Dict} {c : Char}

theorem urlSafe_ne {v : Nat} (hv : v < 64) :
    ∀ c ∈ ['.', '"', '[', '\x7b'], toUrlSafe (encodeChar v) ≠ c := by
  have h : ∀ v : Fin 64, ['.', '"', '[', '\x7b'].all (toUrlSafe (encodeChar v) ≠ ·) := by
    decide +kernel
  intro c hc
  exact of_decide_eq_true (List.all_eq_true.1 (h ⟨v, hv⟩) c hc)

theorem IsSegment.not_mem (h : IsSegment header) : ∀ c ∈ ['.', '"', '[', '\x7b'], c ∉ header.toList := by
  intro c hc hmem
  obtain ⟨v, hv, heq⟩ := h c hmem
  exact urlSafe_ne hv c hc heq.symm

theorem base64url_not_mem (padded : Bool) (data : Bytes) :
    ∀ c ∈ ['.', '"', '[', '\x7b'], c ∉ (base64url padded data).toList := by
  intro c hc hmem
  rw [base64url, String.toList_ofList, Spelling.encode_eq] at hmem
  obtain ⟨d, hd, heq⟩ := List.mem_map.1 hmem
  rcases mem_encode (Spelling.mem_chars hd) with rfl | ⟨v, hv, rfl⟩
  · have hpad : toUrlSafe '=' ∉ ['.', '"', '[', '\x7b'] := by decide
    have heq : toUrlSafe '=' = c := heq
    exact hpad (heq ▸ hc)
  · exact urlSafe_ne hv c hc heq

theorem jwt_not_text {segment : String}
    (hh : ∀ c ∈ ['.', '"', '[', '\x7b'], c ∉ header.toList)
    (hs : ∀ c ∈ ['.', '"', '[', '\x7b'], c ∉ segment.toList)
    (hg : ∀ c ∈ ['.', '"', '[', '\x7b'], c ∉ signature.toList) :
    ¬JsonText.Text (jwt header segment signature).toList := by
  intro h
  have hdots := count_dots_jwt (hh '.' (by decide)) (hs '.' (by decide)) (hg '.' (by decide))
  have hone := h.count_dot fun c hc hmem => by
    have hc' : c ∈ ['.', '"', '[', '\x7b'] := List.mem_cons_of_mem _ hc
    have hne : c ≠ '.' := by
      rintro rfl
      exact absurd hc (by decide)
    simp only [jwt, String.toList_append, List.mem_append] at hmem
    rcases hmem with (((hmem | hmem) | hmem) | hmem) | hmem
    · exact hh c hc' hmem
    · exact hne (List.mem_singleton.1 hmem)
    · exact hs c hc' hmem
    · exact hne (List.mem_singleton.1 hmem)
    · exact hg c hc' hmem
  rw [jwt, hdots] at hone
  exact absurd hone (by decide)

theorem jsonLoads_jwt (hJ : L.ReadsJson) (hh : IsSegment header) (hs : IsSegment signature)
    (padded : Bool) (data : Bytes) :
    L.jsonLoads (jwt header (base64url padded data) signature) = .error .jsonDecodeError :=
  hJ.rejects _ (jwt_not_text hh.not_mem (base64url_not_mem padded data) hs.not_mem)

theorem plaintext_jwt (hL : L.Rfc4648) (hJ : L.ReadsJson) (hh : IsSegment header)
    (hs : IsSegment signature) (padded : Bool) (h : L.jsonLoads text = .ok (.obj payload)) :
    Plaintext L payload (jwt header (base64url padded (encodeUtf8 text)) signature) :=
  .jwt (hh.not_mem '.' (by decide)) (base64url_not_mem padded _ '.' (by decide))
    (hs.not_mem '.' (by decide)) (jsonLoads_jwt hJ hh hs padded _) (urlsafeB64decode_spelling hL)
    (hJ.bytes text _ h)

/-- A JSON object, in any text of it, reads the same as it stands and as the middle segment of a
JWT. The JSON branch never takes the JWT, and the JWT branch never takes the JSON text. -/
theorem parsePayload_jwt (hL : L.Rfc4648) (hJ : L.ReadsJson)
    (h : L.jsonLoads text = .ok (.obj payload)) (hh : IsSegment header) (hs : IsSegment signature)
    (padded : Bool) :
    parsePayload L (jwt header (base64url padded (encodeUtf8 text)) signature) =
        .ok (.obj payload) ∧
      parsePayload L text = .ok (.obj payload) ∧
      L.jsonLoads (jwt header (base64url padded (encodeUtf8 text)) signature) =
        .error .jsonDecodeError ∧
      ∀ (decode : String → Except LibError Bytes) (loads : Bytes → Except LibError Json),
        parsePayload { L with urlsafeB64decode := decode, jsonLoadsBytes := loads } text =
          .ok (.obj payload) := by
  refine ⟨parsePayload_of_plaintext (plaintext_jwt hL hJ hh hs padded h),
    parsePayload_of_plaintext (.json h), jsonLoads_jwt hJ hh hs padded _, ?_⟩
  intro decode loads
  exact parsePayload_of_plaintext (.json h)

end

/-! ## A recorded text -/

namespace Recorded

def dottedText : String := "\x7b\"v\": \"1.0.2\"\x7d"

def dottedPayload : Dict := [("v", .str "1.0.2")]

open JsonText in
theorem text_dottedText : Text dottedText.toList := by
  have plain {cs : List Char} (h : ∀ c ∈ cs, c ≠ '"' ∧ c ≠ '\\' ∧ 0x20 ≤ c.toNat) : Chars cs := by
    induction cs with
    | nil => exact .nil
    | cons c cs ih =>
      obtain ⟨hc, hcs⟩ := List.forall_mem_cons.1 h
      exact .plain hc.1 hc.2.1 hc.2.2 (ih hcs)
  have hdigits : ∀ c ∈ ['1', '.', '0', '.', '2'], c ≠ '"' ∧ c ≠ '\\' ∧ 0x20 ≤ c.toNat := by
    have h : ['1', '.', '0', '.', '2'].all fun c => c ≠ '"' ∧ c ≠ '\\' ∧ 0x20 ≤ c.toNat := by decide
    intro c hc
    exact of_decide_eq_true (List.all_eq_true.1 h c hc)
  have hempty : Whitespace [] := List.forall_mem_nil _
  have hkey : Key ([] ++ ('"' :: ['v'] ++ ['"']) ++ []) :=
    .mk hempty (.mk (plain (List.forall_mem_singleton.2 (by decide)))) hempty
  have hvalue : Text ([' '] ++ ('"' :: ['1', '.', '0', '.', '2'] ++ ['"']) ++ []) :=
    .mk (List.forall_mem_singleton.2 (.inl rfl)) (.string (.mk (plain hdigits))) hempty
  exact .mk hempty (.object (.one hkey hvalue)) hempty

def dottedLibrary : Library :=
  { recordedLibrary with
    jsonLoads := fun text =>
      if text = dottedText then .ok (.obj dottedPayload) else .error .jsonDecodeError
    jsonLoadsBytes := fun data =>
      if data = encodeUtf8 dottedText then .ok (.obj dottedPayload) else .error .jsonDecodeError }

theorem readsJson : dottedLibrary.ReadsJson where
  rejects text h := by
    refine if_neg ?_
    rintro rfl
    exact h text_dottedText
  bytes text v h := by
    simp only [dottedLibrary] at h ⊢
    split at h
    · next ht => rw [ht, if_pos rfl, h]
    · cases h

theorem isSegment_e30 : IsSegment "e30" := by
  have h : "e30".toList.all fun c =>
      (List.range 64).any fun v => c = Base64.toUrlSafe (Base64.encodeChar v) := by
    decide +kernel
  intro c hc
  obtain ⟨v, hv, he⟩ := List.any_eq_true.1 (List.all_eq_true.1 h c hc)
  exact ⟨v, List.mem_range.1 hv, of_decide_eq_true he⟩

theorem isSegment_empty : IsSegment "" := List.forall_mem_nil _

end Recorded

open Recorded in
theorem parsePayload_jwt_recorded :
    parsePayload dottedLibrary (jwt "e30" (base64url false (encodeUtf8 dottedText)) "") =
      .ok (.obj dottedPayload) :=
  (parsePayload_jwt ⟨rfl, rfl⟩ readsJson (if_pos rfl) isSegment_e30 isSegment_empty false).1

end WikiBackend
