import DtoForge.Loading.Document
import DtoForge.Proofs.Files.Tree
import DtoForge.Proofs.Json.Limit

/-! # Failing readers — what a document that cannot be had is reported as

A reader of documents promises one kind of failure. A file breaks the promise by bytes that are no
text, and an address by a host that cannot stand in one: both are looked at before anything answers
for them. Of what comes back for a request, a refusal without a response breaks it. A document that
is given up for an integer breaks it wherever it comes from. -/

namespace DtoForge

/-- Whether a failure is of the kind that readers and loaders promise. A missing file is reported as
such. -/
def LoadError.isDocumented : LoadError → Bool
  | .fileNotFound _ => false
  | e => e.isExpected

/-! ## Addresses -/

namespace Url

/-- The characters of an address that count. -/
def charsOf (s : String) : List Char :=
  (s.toList.dropWhile fun c => c.toNat ≤ 0x20).filter fun c => c != '\t' && c != '\r' && c != '\n'

/-- The scheme in front of an address. -/
def schemeOf (s : String) : List Char :=
  (splitScheme (charsOf s)).1

/-- The host of an address as it is written, whatever it is. -/
def hostOf (s : String) : List Char :=
  (splitHost (splitScheme (charsOf s)).2).1

/-- The path of an address, without query and fragment. -/
def pathOf (s : String) : List Char :=
  let path := (splitHost (splitScheme (charsOf s)).2).2.takeWhile fun c => c != '#' && c != '?'
  if schemesWithParameters.contains (String.ofList (schemeOf s)) then dropParameters path else path

/-- What stands in the brackets of a host. -/
def inBrackets (host : List Char) : List Char :=
  ((host.dropWhile (· != '[')).drop 1).takeWhile (· != ']')

/-- What may stand in brackets: an address of version six or of a version to come. -/
def IsBracketed (host : List Char) : Prop :=
  if host.head? = some 'v' then isFuture host = true
  else isVersionSix host = true ∧ isVersionFour host = false

/-- A host that can stand in an address. -/
structure IsHost (host : List Char) : Prop where
  /-- Brackets come together. -/
  brackets : '[' ∈ host ↔ ']' ∈ host
  address : '[' ∈ host → IsBracketed (inBrackets host)
  delimiter : ∀ c ∈ host, standsForDelimiter c = false

theorem checkBracketed_eq_ok_iff {host : List Char} :
    checkBracketed host = .ok () ↔ IsBracketed host := by
  unfold checkBracketed IsBracketed
  by_cases hfuture : host.head? = some 'v'
  · cases isFuture host <;> simp [hfuture]
  · cases isVersionFour host <;> cases isVersionSix host <;> simp [hfuture]

theorem checkBrackets_eq_ok_iff {host : List Char} : checkBrackets host = .ok () ↔
    ('[' ∈ host ↔ ']' ∈ host) ∧ ('[' ∈ host → IsBracketed (inBrackets host)) := by
  unfold checkBrackets
  rw [← checkBracketed_eq_ok_iff, inBrackets]
  by_cases hopen : '[' ∈ host <;> by_cases hclose : ']' ∈ host <;> simp [hopen, hclose]

theorem ofText_eq (s : String) : ofText s = (do
    checkBrackets (hostOf s)
    if (hostOf s).any standsForDelimiter then throw (.delimiter (String.ofList (hostOf s)))
    return ⟨String.ofList (schemeOf s), String.ofList (hostOf s), String.ofList (pathOf s)⟩) :=
  rfl

/-- An address is read exactly if its host can stand in one, and then it is cut into its parts. -/
theorem ofText_cases (s : String) :
    (¬ IsHost (hostOf s) ∧ ∃ cause, ofText s = .error cause) ∨
      IsHost (hostOf s) ∧ ofText s = .ok
        ⟨String.ofList (schemeOf s), String.ofList (hostOf s), String.ofList (pathOf s)⟩ := by
  rw [ofText_eq]
  cases hbrackets : checkBrackets (hostOf s) with
  | error cause =>
      refine .inl ⟨fun h => ?_, cause, rfl⟩
      cases hbrackets.symm.trans (checkBrackets_eq_ok_iff.mpr ⟨h.brackets, h.address⟩)
  | ok =>
      obtain ⟨htogether, haddress⟩ := checkBrackets_eq_ok_iff.mp hbrackets
      cases hdelimiter : (hostOf s).any standsForDelimiter with
      | true =>
          obtain ⟨c, hc, hstands⟩ := List.any_eq_true.mp hdelimiter
          refine .inl ⟨fun h => ?_, _, rfl⟩
          rw [h.delimiter c hc] at hstands
          cases hstands
      | false =>
          refine .inr ⟨⟨htogether, haddress, fun c hc => ?_⟩, rfl⟩
          rw [← Bool.not_eq_true]
          exact List.any_eq_false.mp hdelimiter c hc

end Url

/-! ## Readers -/

namespace Loading

/-- The promised kind of failure. -/
abbrev Documented (e : LoadError) : Prop :=
  e.isDocumented = true

/-- Of the texts that are no document only one that is given up for an integer breaks the
promise. -/
theorem documentOf_failsWith_iff {invalid : Json.ReadError → LoadError}
    (hinvalid : ∀ error, Documented (invalid error)) {text : String} :
    Steps.FailsWith Documented (documentOf invalid text) ↔ ¬ Json.IsOverlong text :=
  Json.read_failsWith_iff hinvalid fun _ => nofun

theorem readDocument_failsWith_iff {files : Files.Tree} {name : String}
    (hthere : files.exists? (Files.Path.ofText name) = true) :
    Steps.FailsWith Documented (readDocument files name) ↔
      (∀ bytes, files.readBytes (Files.Path.ofText name) = .ok bytes → Text.IsUtf8 bytes) ∧
        ∀ text, files.readText (Files.Path.ofText name) = .ok text → ¬ Json.IsOverlong text := by
  rw [readDocument]
  generalize Files.Path.ofText name = path at hthere ⊢
  simp only [hthere]
  show Steps.FailsWith _ ((files.readText path).mapError _ >>=
    documentOf (LoadError.invalidFile path.text)) ↔ _
  exact Files.Tree.readText_failsWith_iff (fun _ => rfl) (fun _ => nofun)
    fun _ => documentOf_failsWith_iff fun _ => rfl

/-- A reply that breaks the promise: a refusal without a response, or a document that is given up
for an integer. -/
def BreaksPromise : Http.Reply → Prop
  | .failure kind _ => kind = .refused
  | .response status body => Http.isErrorStatus status = false ∧ Json.IsOverlong body

theorem replyDocument_failsWith_iff (url : String) {reply : Http.Reply} :
    Steps.FailsWith Documented (replyDocument url reply) ↔ ¬ BreaksPromise reply := by
  cases reply with
  | response status body =>
      rw [replyDocument, BreaksPromise]
      split
      next herror => exact iff_of_true (Steps.failsWith_error rfl) (by simp [herror])
      next herror =>
        rw [documentOf_failsWith_iff fun _ => rfl, and_iff_right (by simpa using herror)]
  | failure kind message =>
      cases kind with
      | timeout | other => exact iff_of_true (Steps.failsWith_error rfl) nofun
      | refused => exact iff_of_false (fun h => nomatch h .noResponse rfl) fun h => h rfl

theorem fetchDocument_of_ofText {reply : Http.Reply} {url : String} {parts : Url}
    (h : Url.ofText url = .ok parts) : fetchDocument reply url =
      if parts.scheme.isEmpty || parts.host.isEmpty then .error (.incompleteUrl url)
      else replyDocument url reply := by
  rw [fetchDocument, h]
  rfl

theorem fetchDocument_failsWith_iff {reply : Http.Reply} {url : String} :
    Steps.FailsWith Documented (fetchDocument reply url) ↔
      Url.IsHost (Url.hostOf url) ∧
        (Url.schemeOf url = [] ∨ Url.hostOf url = [] ∨ ¬ BreaksPromise reply) := by
  obtain ⟨hhost, cause, hurl⟩ | ⟨hhost, hurl⟩ := Url.ofText_cases url
  · rw [fetchDocument, hurl]
    exact iff_of_false (fun h => nomatch h (.badUrl cause) rfl) fun h => hhost h.1
  · have hempty : ∀ cs : List Char, (String.ofList cs).isEmpty = true ↔ cs = [] := by
      intro cs
      rw [String.isEmpty_iff, String.ofList_eq_empty_iff]
    rw [fetchDocument_of_ofText hurl, ← replyDocument_failsWith_iff url, ← or_assoc,
      ← hempty, ← hempty, ← Bool.or_eq_true, and_iff_right hhost]
    split
    next hparts => exact iff_of_true (Steps.failsWith_error rfl) (.inl hparts)
    next hparts => exact (or_iff_right hparts).symm

/-- **When readers fail only as they promise**: the one of an existing file exactly if the bytes in it
are a text that is not given up for an integer, and the one of an address exactly if the host can
stand in an address and the reply to the request, where it is made, does not break the promise. -/
theorem readers_documented_iff {files : Files.Tree} {name : String}
    (hthere : files.exists? (Files.Path.ofText name) = true) (reply : Http.Reply) (url : String) :
    (((∃ v, readDocument files name = .ok v) ∨
        ∃ e, readDocument files name = .error e ∧ Documented e) ↔
      (∀ bytes, files.readBytes (Files.Path.ofText name) = .ok bytes → Text.IsUtf8 bytes) ∧
        ∀ text, files.readText (Files.Path.ofText name) = .ok text → ¬ Json.IsOverlong text) ∧
    (((∃ v, fetchDocument reply url = .ok v) ∨
        ∃ e, fetchDocument reply url = .error e ∧ Documented e) ↔
      Url.IsHost (Url.hostOf url) ∧
        (Url.schemeOf url = [] ∨ Url.hostOf url = [] ∨ ¬ BreaksPromise reply)) := by
  rw [← Steps.failsWith_iff, ← Steps.failsWith_iff]
  exact ⟨readDocument_failsWith_iff hthere, fetchDocument_failsWith_iff⟩

/-- A tree with nothing but one file in it. -/
def singleFile (bytes : List UInt8) : Files.Tree :=
  { nodes := [(["c.json"], .file bytes)] }

/-- A byte that continues a sequence is no text on its own, and a request to a host without brackets
that is answered in some way gives a document or a promised failure. -/
theorem readers_documented_continuation :
    (singleFile [0x80]).exists? (Files.Path.ofText "c.json") = true ∧
      ¬ ((∃ v, readDocument (singleFile [0x80]) "c.json" = .ok v) ∨
        ∃ e, readDocument (singleFile [0x80]) "c.json" = .error e ∧ Documented e) ∧
      ∃ e, fetchDocument (.response 404 "") "http://localhost/c.json" = .error e ∧ Documented e := by
  have hthere : (singleFile [0x80]).exists? (Files.Path.ofText "c.json") = true := by
    decide +kernel
  obtain ⟨hfile, haddress⟩ :=
    readers_documented_iff hthere (.response 404 "") "http://localhost/c.json"
  refine ⟨hthere, fun h => ?_, ?_⟩
  · obtain ⟨cs, hcs⟩ := Text.exists_decodeUtf8_iff.mpr ((hfile.mp h).1 [0x80] rfl)
    cases hcs
  · have hhost : (Url.hostOf "http://localhost/c.json").any Url.standsForDelimiter = false := by
      decide +kernel
    have hreply : ¬ BreaksPromise (.response 404 "") := fun h => absurd h.1 (by decide)
    refine (haddress.mpr ⟨?_, .inr (.inr hreply)⟩).resolve_left ?_
    · exact ⟨by decide +kernel, fun h => absurd h (by decide +kernel),
        fun c hc => Bool.eq_false_iff.mpr (List.any_eq_false.mp hhost c hc)⟩
    · rintro ⟨v, hv⟩
      cases hv

/-- An opening bracket alone is refused before anything answers for it, whatever would come back. -/
theorem fetchDocument_open_bracket :
    fetchDocument (.response 200 "\x7b\x7d") "http://[" = .error (.badUrl .brackets) ∧
      ¬ Documented (.badUrl .brackets) := by
  decide +kernel

end Loading

end DtoForge
