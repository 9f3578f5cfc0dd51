import DtoForge.Generator.Generate
import DtoForge.Proofs.Text.Quotation

/-! # Tags — what a struct tag says of its field

A tag nests three notations. It is a raw text between backquotes, in which nothing can be escaped and
carriage returns do not count. Its first entry is a quoted text under `json`, read by the rules of
interpreted literals. And that text has the key in front of its first comma and options behind it,
with a hyphen alone for a field that is left out. `readTag` reads them from outside in.

Only the second notation is escaped when a tag is written. So a tag names its property exactly if the
name has nothing that ends or changes the other two (`readTag_tag_iff`). -/

namespace DtoForge.Go

open Text Source

/-! ## Reading -/

/-- What a tag says of its field in documents. -/
inductive FieldKey where
  /-- The field is left out. -/
  | skipped
  /-- The key of the field, and whether the field is left out when it is empty. -/
  | named (key : String) (omitsEmpty : Bool)
  deriving DecidableEq

/-- The text of a raw literal. No backquote stands in it, and carriage returns are dropped. -/
def rawText : List Char → Option (List Char)
  | '`' :: cs =>
    if cs.getLast? = some '`' ∧ '`' ∉ cs.dropLast then some (cs.dropLast.filter (· != '\r')) else none
  | _ => none

/-- What stands behind the opening quote of the entry for JSON, when it is the first one. -/
def entryText : List Char → Option (List Char)
  | 'j' :: 's' :: 'o' :: 'n' :: ':' :: '"' :: cs => some cs
  | _ => none

/-- What a backslash and another character stand for in an interpreted literal. The escapes that give
a number are left out. -/
def escapeOf : Char → Option Char
  | 'a' => some '\x07'
  | 'b' => some '\x08'
  | 'f' => some '\x0c'
  | 'n' => some '\n'
  | 'r' => some '\r'
  | 't' => some '\t'
  | 'v' => some '\x0b'
  | '\\' => some '\\'
  | '"' => some '"'
  | _ => none

/-- How interpreted literals are read: they end on their line. -/
def literalRules : QuoteRules where
  quote := '"'
  escape := escapeOf
  barred := ['\n']

/-- What the value of an entry says of its field. -/
def fieldKey (value : List Char) : FieldKey :=
  if value = ['-'] then .skipped
  else
    let parts := splitPieces ',' value
    .named (String.ofList (parts.headD [])) (parts.tail.contains "omitempty".toList)

/-- What a tag says of its field, if it can be read. -/
def readTag (tag : String) : Option FieldKey := do
  let text ← rawText tag.toList
  let entry ← entryText text
  let (value, _) ← readQuoted literalRules entry
  return fieldKey value

theorem rawText_eq_some_iff {body out : List Char} :
    rawText ('`' :: (body ++ ['`'])) = some out ↔ '`' ∉ body ∧ out = body.filter (· != '\r') := by
  rw [rawText, List.getLast?_concat, List.dropLast_concat]
  by_cases hmem : '`' ∈ body <;> simp [hmem, eq_comm]

/-! ## Writing -/

variable {w : Writer} {f : Field}

/-- The marks of names in tags. -/
def tagMarks : List Char :=
  ['\\', '"']

theorem literalRules_unmarks : literalRules.Unmarks tagMarks where
  backslash_mem := by decide
  quote_mem := by decide
  quote_ne := by decide
  escape_eq := by simp [literalRules, escapeOf, tagMarks]
  free := by simp [literalRules, tagMarks]

theorem toList_tagName (name : String) :
    (tagName name).toList = escapeMarked tagMarks name.toList := by
  rw [tagName, String.toList_ofList, escapeMarked]
  congr 1
  funext c
  simp [tagMarks]

/-- What stands behind the name in the entry of a field. -/
def tagOptions (required : Bool) : List Char :=
  if required then [] else ",omitempty".toList

/-- A tag is a raw literal whose first entry has the name and the options, escaped. -/
theorem toList_tag (w : Writer) (f : Field) :
    ∃ behind, (tag w f).toList = '`' :: ("json:\"".toList ++
      (escapeMarked tagMarks (f.wireName.toList ++ tagOptions f.required) ++ '"' :: behind) ++ ['`']) ∧
      '`' ∉ behind := by
  have hoptions : escapeMarked tagMarks (tagOptions f.required) =
      (partIf (!f.required) ",omitempty").toList := by
    cases f.required <;> decide
  refine ⟨(partIf (w.on .validation && f.required) " validate:\"required\"").toList, ?_, ?_⟩
  · simp [tag, toList_tagName, escapeMarked_append, hoptions]
  · cases w.on .validation && f.required <;> decide

theorem readTag_eq_some_iff {tag : String} {key : FieldKey} :
    readTag tag = some key ↔ ∃ text entry read, rawText tag.toList = some text ∧
      entryText text = some entry ∧ readQuoted literalRules entry = some read ∧
      key = fieldKey read.1 := by
  rw [readTag]
  simp only [Option.bind_eq_bind, Option.bind_eq_some_iff, Option.pure_def, Option.some_inj]
  constructor
  · rintro ⟨text, htext, entry, hentry, read, hread, rfl⟩
    exact ⟨text, entry, read, htext, hentry, hread, rfl⟩
  · rintro ⟨text, entry, read, htext, hentry, hread, rfl⟩
    exact ⟨text, htext, entry, hentry, read, hread, rfl⟩

/-- A tag is read unless its name has a backquote or a line feed. What it says comes from the name
without its carriage returns. -/
theorem readTag_tag_eq_some_iff {key : FieldKey} :
    readTag (tag w f) = some key ↔ '`' ∉ f.wireName.toList ∧ '\n' ∉ f.wireName.toList ∧
      key = fieldKey (f.wireName.toList.filter (· != '\r') ++ tagOptions f.required) := by
  obtain ⟨behind, htag, hbehind⟩ := toList_tag w f
  have hoptions : '`' ∉ tagOptions f.required ∧ '\n' ∉ tagOptions f.required ∧
      (tagOptions f.required).filter (· != '\r') = tagOptions f.required := by
    cases f.required <;> decide
  obtain ⟨hbackquote, hfeed, hreturn⟩ := hoptions
  -- the raw literal ends where it should exactly if the name has no backquote
  have hraw : ∀ text, rawText (tag w f).toList = some text ↔ '`' ∉ f.wireName.toList ∧
      text = "json:\"".toList ++ (escapeMarked tagMarks (f.wireName.toList.filter (· != '\r') ++
        tagOptions f.required) ++ '"' :: behind.filter (· != '\r')) := by
    intro text
    rw [htag, rawText_eq_some_iff, List.mem_append, List.mem_append, List.mem_cons,
      mem_escapeMarked_iff (by decide), List.mem_append, List.filter_append, List.filter_append,
      filter_escapeMarked (by decide) (by simp [tagMarks]), List.filter_append, hreturn,
      List.filter_cons_of_pos (by decide)]
    simp [hbackquote, hbehind]
  have hread : ∀ read, readQuoted literalRules (escapeMarked tagMarks
      (f.wireName.toList.filter (· != '\r') ++ tagOptions f.required) ++
        '"' :: behind.filter (· != '\r')) = some read ↔ '\n' ∉ f.wireName.toList ∧
      read = (f.wireName.toList.filter (· != '\r') ++ tagOptions f.required,
        behind.filter (· != '\r')) := by
    intro read
    refine (readQuoted_escapeMarked_iff literalRules_unmarks).trans (and_congr_left' ?_)
    show (∀ c ∈ _, c ∉ ['\n']) ↔ _
    constructor
    · intro h hmem
      exact h '\n' (List.mem_append_left _ (List.mem_filter.mpr ⟨hmem, by decide⟩)) (by simp)
    · intro h c hc hbarred
      obtain rfl := List.mem_singleton.mp hbarred
      rcases List.mem_append.mp hc with hc | hc
      · exact h (List.mem_filter.mp hc).1
      · exact hfeed hc
  rw [readTag_eq_some_iff]
  constructor
  · rintro ⟨text, entry, read, htext, hentry, hquoted, rfl⟩
    obtain ⟨hname, rfl⟩ := (hraw text).mp htext
    obtain rfl := Option.some.inj hentry
    obtain ⟨hline, rfl⟩ := (hread read).mp hquoted
    exact ⟨hname, hline, rfl⟩
  · rintro ⟨hname, hline, rfl⟩
    exact ⟨_, _, _, (hraw _).mpr ⟨hname, rfl⟩, rfl, (hread _).mpr ⟨hline, rfl⟩, rfl⟩

/-! ## Main result -/

/-- The name is the only part before the options when it has no comma. -/
theorem splitPieces_append_tagOptions {cs : List Char} (hcomma : ',' ∉ cs) (required : Bool) :
    splitPieces ',' (cs ++ tagOptions required) =
      cs :: if required then [] else ["omitempty".toList] := by
  cases required with
  | true =>
      show splitPieces ',' (cs ++ []) = [cs]
      rw [List.append_nil, splitPieces_of_not_mem hcomma]
  | false =>
      show splitPieces ',' (cs ++ ',' :: "omitempty".toList) = [cs, "omitempty".toList]
      rw [splitPieces_append_cons, splitPieces_of_not_mem hcomma,
        splitPieces_of_not_mem (by decide)]
      rfl

/-- A key stands before the first comma, and is not read from a hyphen alone. -/
theorem fieldKey_eq_named_iff {value : List Char} {key : String} {omits : Bool} :
    fieldKey value = .named key omits ↔ value ≠ ['-'] ∧
      key.toList = (splitPieces ',' value).headD [] ∧
      omits = (splitPieces ',' value).tail.contains "omitempty".toList := by
  rw [fieldKey]
  split
  next hskip => simp [hskip]
  next hskip =>
    simp only [FieldKey.named.injEq, ne_eq, hskip, not_false_eq_true, true_and]
    rw [← String.toList_inj, String.toList_ofList, eq_comm, eq_comm (a := omits)]

theorem fieldKey_tag_iff {name : String} {required : Bool} :
    fieldKey (name.toList.filter (· != '\r') ++ tagOptions required) = .named name (!required) ↔
      '\r' ∉ name.toList ∧ ',' ∉ name.toList ∧ ¬ (name = "-" ∧ required) := by
  rw [fieldKey_eq_named_iff]
  constructor
  · rintro ⟨hskip, hkey, -⟩
    -- the key is a part of the value, and parts have no comma
    have hpart : name.toList ∈
        splitPieces ',' (name.toList.filter (· != '\r') ++ tagOptions required) := by
      obtain ⟨part, parts, hparts⟩ := List.exists_cons_of_ne_nil (splitPieces_ne_nil ',' _)
      rw [hparts] at hkey ⊢
      exact List.mem_cons.mpr (.inl hkey)
    have hcomma : ',' ∉ name.toList := fun hmem => (mem_splitPieces hpart hmem).2 rfl
    have hkept : ',' ∉ name.toList.filter (· != '\r') := fun hmem =>
      hcomma (List.mem_filter.mp hmem).1
    rw [splitPieces_append_tagOptions hkept, List.headD_cons] at hkey
    have hreturn : '\r' ∉ name.toList := by
      intro hmem
      rw [hkey] at hmem
      exact absurd (List.mem_filter.mp hmem).2 (by decide)
    refine ⟨hreturn, hcomma, ?_⟩
    rintro ⟨rfl, rfl⟩
    exact hskip (by decide)
  · rintro ⟨hreturn, hcomma, hhyphen⟩
    have hfilter : name.toList.filter (· != '\r') = name.toList :=
      List.filter_eq_self.mpr fun c hc => bne_iff_ne.mpr (ne_of_mem_of_not_mem hc hreturn)
    rw [hfilter, splitPieces_append_tagOptions hcomma]
    refine ⟨?_, rfl, ?_⟩
    · intro hvalue
      cases required with
      | true =>
          rw [tagOptions, if_pos rfl, List.append_nil] at hvalue
          exact hhyphen ⟨String.toList_inj.mp hvalue, rfl⟩
      | false =>
          have hlength := congrArg List.length hvalue
          have hoptions : (tagOptions false).length = 10 := by decide
          rw [List.length_append, hoptions, List.length_singleton] at hlength
          omega
    · cases required <;> rfl

/-- **What a tag can name.** A tag names its property and says whether it may be left out, exactly if
the name has no backquote, line feed, carriage return or comma, and is no hyphen alone unless the
property is optional. -/
theorem readTag_tag_iff (w : Writer) (f : Field) :
    readTag (tag w f) = some (.named f.wireName (!f.required)) ↔
      (∀ c ∈ ['`', '\n', '\r', ','], c ∉ f.wireName.toList) ∧
        ¬ (f.wireName = "-" ∧ f.required) := by
  rw [readTag_tag_eq_some_iff, eq_comm (a := FieldKey.named _ _), fieldKey_tag_iff]
  simp only [List.forall_mem_cons, List.not_mem_nil, false_imp_iff, implies_true, and_true,
    and_assoc]

/-- A hyphen that is required is named by no tag: its field is left out. -/
theorem exists_tag_skipped :
    let w : Writer := Generator.writer ⟨.go, {}⟩
    let f : Field :=
      { wireName := "-", name := "Field", type := "string", required := true,
        schema := .leaf .string none }
    readTag (tag w f) = some .skipped ∧
      readTag (tag w f) ≠ some (.named f.wireName (!f.required)) := by
  decide +kernel

end DtoForge.Go
