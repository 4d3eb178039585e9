import Mathlib.Data.List.TakeWhile
import WikiBackend.Codec.Spellings
import WikiBackend.Token.RoundTrip

/-! A token may be spelled in four ways, with whitespace around it. They all decode alike. -/

namespace WikiBackend

theorem dropWhile_isSpace_append {l cs : List Char} (hl : ∀ c ∈ l, isSpace c = true)
    (h : ∀ c ∈ cs, isSpace c = false) : (l ++ cs).dropWhile isSpace = cs := by
  rw [List.dropWhile_append_of_pos hl]
  cases cs with
  | nil => rfl
  | cons c cs => rw [List.dropWhile_cons_of_neg (by simp [h c List.mem_cons_self])]

theorem stripChars_append {l cs r : List Char} (hl : ∀ c ∈ l, isSpace c = true)
    (hr : ∀ c ∈ r, isSpace c = true) (h : ∀ c ∈ cs, isSpace c = false) :
    stripChars (l ++ cs ++ r) = cs := by
  -- where the text is empty, all of the whitespace goes at once
  have hleft : ∃ r', (∀ c ∈ r', isSpace c = true) ∧
      (l ++ cs ++ r).dropWhile isSpace = cs ++ r' := by
    rw [List.append_assoc, List.dropWhile_append_of_pos hl]
    cases cs with
    | nil => exact ⟨[], List.forall_mem_nil _, List.dropWhile_eq_nil_iff.2 hr⟩
    | cons c cs =>
      refine ⟨r, hr, ?_⟩
      rw [List.cons_append, List.dropWhile_cons_of_neg (by simp [h c List.mem_cons_self])]
  obtain ⟨r', hr', hleft⟩ := hleft
  rw [stripChars, trimChars, hleft, List.reverse_append,
    dropWhile_isSpace_append (fun c hc => hr' c (List.mem_reverse.1 hc))
      (fun c hc => h c (List.mem_reverse.1 hc)), List.reverse_reverse]

theorem padB64_ofList (cs : List Char) :
    padB64 (String.ofList cs) = String.ofList (cs ++ Base64.padding cs.length) := by
  rw [padB64, String.length_ofList, String.ofList_append]
  rfl

structure Library.Rfc4648 (L : Library) : Prop where
  b64decodeValidate : L.b64decodeValidate = stdB64decodeValidate
  urlsafeB64decode : L.urlsafeB64decode = stdUrlsafeB64decode

theorem b64decodeString_of_ascii {strict : Bool} {cs : List Char} (h : ∀ c ∈ cs, c.toNat < 128) :
    b64decodeString strict cs =
      match Base64.decode strict cs with
      | some b => .ok b
      | none => .error .binasciiError := by
  have hany : cs.any (128 ≤ ·.toNat) = false := by
    rw [List.any_eq_false]
    intro c hc
    simpa using h c hc
  rw [b64decodeString, hany]
  rfl

section
open Base64
variable {L : Library} {sp : Spelling} {data raw : Bytes} {before after : List Char}

theorem urlsafeB64decode_spelling (hL : L.Rfc4648) :
    L.urlsafeB64decode (padB64 (String.ofList (sp.encode data))) = .ok data := by
  have hascii : ∀ c ∈ Base64.encode data, c.toNat < 128 :=
    mem_encode_cases (by decide) fun _ => encodeChar_ascii
  rw [hL.urlsafeB64decode, padB64_ofList, stdUrlsafeB64decode, String.toList_ofList,
    Spelling.map_fromUrlSafe_encode, b64decodeString_of_ascii hascii, decode_encode]

theorem b64decodeValidate_spelling (hL : L.Rfc4648) :
    L.b64decodeValidate (String.ofList (sp.encode data)) =
      if sp.encode data = Base64.encode data then .ok data else .error .binasciiError := by
  rw [hL.b64decodeValidate, stdB64decodeValidate, String.toList_ofList,
    b64decodeString_of_ascii Spelling.ascii]
  rcases hdec : decode true (sp.encode data) with _ | raw
  · rw [if_neg]
    intro heq
    rw [heq, decode_encode] at hdec
    cases hdec
  · obtain ⟨heq, rfl⟩ := Spelling.decode_strict_iff.1 hdec
    rw [if_pos heq]

theorem isSpace_toUrlSafe {c : Char} (h : isSpace c = false) : isSpace (toUrlSafe c) = false := by
  unfold toUrlSafe
  split
  · rfl
  · split
    · rfl
    · exact h

theorem isSpace_spelling : ∀ c ∈ sp.encode data, isSpace c = false :=
  Spelling.forall_mem_encode rfl (fun v hv => isSpace_encodeChar ⟨v, hv⟩)
    fun v hv => isSpace_toUrlSafe (isSpace_encodeChar ⟨v, hv⟩)

def spelled (before : List Char) (sp : Spelling) (data : Bytes) (after : List Char) : String :=
  String.ofList (before ++ sp.encode data ++ after)

theorem strip_spelled (hb : ∀ c ∈ before, isSpace c = true) (ha : ∀ c ∈ after, isSpace c = true) :
    strip (spelled before sp data after) = String.ofList (sp.encode data) := by
  rw [strip, spelled, String.toList_ofList, stripChars_append hb ha isSpace_spelling]

theorem b64decode_of_ok {token : String} (h : L.b64decodeValidate (strip token) = .ok raw) :
    b64decode L token = .ok raw := by
  rw [b64decode, h]
  rfl

theorem b64decode_of_binasciiError {token : String}
    (h : L.b64decodeValidate (strip token) = .error .binasciiError) :
    b64decode L token =
      exceptValueError (call (L.urlsafeB64decode (padB64 (strip token)))) (throw oauthCodeInvalid) := by
  rw [b64decode, h]
  rfl

theorem b64decode_spelling (hL : L.Rfc4648) {token : String}
    (h : strip token = String.ofList (sp.encode data)) : b64decode L token = .ok data := by
  have hstrict : L.b64decodeValidate (String.ofList (sp.encode data)) =
      if sp.encode data = Base64.encode data then .ok data else .error .binasciiError :=
    b64decodeValidate_spelling hL
  have hlenient : L.urlsafeB64decode (padB64 (String.ofList (sp.encode data))) = .ok data :=
    urlsafeB64decode_spelling hL
  rw [← h] at hstrict hlenient
  split at hstrict
  · exact b64decode_of_ok hstrict
  · rw [b64decode_of_binasciiError hstrict, hlenient]
    rfl

/-- Every spelling decodes to the bytes. The url-safe decoder reads them all; the strict decoder
takes the ones that do not differ from the encoded text, with the same result, and the url-safe
decoder is asked for exactly the others. -/
theorem b64decode_spelled (hL : L.Rfc4648) (sp : Spelling) (data : Bytes)
    (hb : ∀ c ∈ before, isSpace c = true) (ha : ∀ c ∈ after, isSpace c = true) :
    b64decode L (spelled before sp data after) = .ok data ∧
      L.urlsafeB64decode (padB64 (strip (spelled before sp data after))) = .ok data ∧
      (∀ raw, L.b64decodeValidate (strip (spelled before sp data after)) = .ok raw ↔
        raw = data ∧ sp.encode data = Base64.encode data) ∧
      ∀ fallback : String → Except LibError Bytes,
        b64decode { L with urlsafeB64decode := fallback } (spelled before sp data after) =
          if sp.encode data = Base64.encode data then .ok data
          else exceptValueError (call (fallback (padB64 (strip (spelled before sp data after)))))
            (throw oauthCodeInvalid) := by
  have hstrip : strip (spelled before sp data after) = String.ofList (sp.encode data) :=
    strip_spelled hb ha
  have hstrict : L.b64decodeValidate (String.ofList (sp.encode data)) =
      if sp.encode data = Base64.encode data then .ok data else .error .binasciiError :=
    b64decodeValidate_spelling hL
  have hlenient : L.urlsafeB64decode (padB64 (String.ofList (sp.encode data))) = .ok data :=
    urlsafeB64decode_spelling hL
  rw [← hstrip] at hstrict hlenient
  refine ⟨b64decode_spelling hL hstrip, hlenient, ?_, ?_⟩
  · intro raw
    rw [hstrict]
    split
    · next heq => rw [Except.ok.injEq, and_iff_left heq, eq_comm]
    · next hne =>
      constructor
      · intro h
        cases h
      · exact fun h => absurd h.2 hne
  · intro fallback
    split at hstrict
    · next heq =>
      rw [if_pos heq]
      exact b64decode_of_ok hstrict
    · next hne =>
      rw [if_neg hne]
      exact b64decode_of_binasciiError hstrict

end

theorem b64decode_spelled_recorded :
    b64decode recordedLibrary (spelled ['\n'] ⟨true, false⟩ [251, 255] [' ']) = .ok [251, 255] :=
  (b64decode_spelled ⟨rfl, rfl⟩ ⟨true, false⟩ [251, 255] (List.forall_mem_singleton.2 (by decide))
    (List.forall_mem_singleton.2 (by decide))).1

example : spelled ['\n'] ⟨true, false⟩ [251, 255] [' '] = "\n-_8 " := by decide +kernel

end WikiBackend
