import DtoForge.Proofs.Generator.Keys
import DtoForge.Proofs.Generator.Members
import DtoForge.Proofs.Schema.Structure

/-! # Guards — which values a type guard accepts

The guard of an interface checks every required property for the kind of value it had in the example.
The checks are read here as the conditions they stand for and held against a record, which is given by
its own properties. A guard accepts the example it was made from. It refuses a record in which a
required property is missing, null or of another kind, but for one case: to `typeof` a list is an
object too, and nothing else in the check tells the two apart. So a list is accepted for an object
(`guard_accepts_iff`). -/

namespace DtoForge.TypeScript

open Text Schema

/-! ## Conditions -/

/-- A condition on one property of a record. -/
inductive Condition where
  /-- `typeof record[key] === word` -/
  | typeIs (key word : String)
  /-- `Array.isArray(record[key])` -/
  | isArray (key : String)
  /-- `record[key] !== null` -/
  | notNull (key : String)
  /-- `key in record` -/
  | isIn (key : String)
  deriving DecidableEq

/-- What `typeof` answers for a property. Lists and null are objects to it. -/
def typeWord : Option Json → String
  | none => "undefined"
  | some (.bool _) => "boolean"
  | some (.int _) | some (.float _) => "number"
  | some (.str _) => "string"
  | some .null | some (.list _) | some (.object _) => "object"

/-- Whether a condition holds of the record with some properties. -/
def Condition.holds (record : Entries Json) : Condition → Bool
  | .typeIs key word => typeWord (record.get? key) == word
  | .isArray key => (record.get? key).any fun v => v.kind == .list
  | .notNull key => record.get? key != some .null
  | .isIn key => record.has key

/-! ## Reading -/

/-- The text of a literal in single quotes, and what stands behind it. -/
def readLiteral : List Char → Option (String × List Char)
  | '\'' :: cs => (readQuoted literalRules cs).map fun (text, rest) => (String.ofList text, rest)
  | _ => none

/-- The key of an access to the record, and what stands behind it. -/
def readAccess (cs : List Char) : Option (String × List Char) := do
  let cs ← cs.dropPrefix? "record[".toList
  let (key, cs) ← readLiteral cs
  let cs ← cs.dropPrefix? "]".toList
  return (key, cs)

/-- The check of a type word at the start of a text, and what stands behind it. -/
def readTypeIs (cs : List Char) : Option (Condition × List Char) := do
  let cs ← cs.dropPrefix? "typeof ".toList
  let (key, cs) ← readAccess cs
  let cs ← cs.dropPrefix? " === ".toList
  let (word, cs) ← readLiteral cs
  return (.typeIs key word, cs)

/-- The check for a list at the start of a text, and what stands behind it. -/
def readIsArray (cs : List Char) : Option (Condition × List Char) := do
  let cs ← cs.dropPrefix? "Array.isArray(".toList
  let (key, cs) ← readAccess cs
  let cs ← cs.dropPrefix? ")".toList
  return (.isArray key, cs)

/-- The check against null at the start of a text, and what stands behind it. -/
def readNotNull (cs : List Char) : Option (Condition × List Char) := do
  let (key, cs) ← readAccess cs
  let cs ← cs.dropPrefix? " !== null".toList
  return (.notNull key, cs)

/-- The check for a key at the start of a text, and what stands behind it. -/
def readIsIn (cs : List Char) : Option (Condition × List Char) := do
  let (key, cs) ← readLiteral cs
  let cs ← cs.dropPrefix? " in record".toList
  return (.isIn key, cs)

/-- The condition at the start of a text, and what stands behind it. Each notation starts with a
character of its own. -/
def readCondition (cs : List Char) : Option (Condition × List Char) :=
  match cs.head? with
  | some 't' => readTypeIs cs
  | some 'A' => readIsArray cs
  | some 'r' => readNotNull cs
  | some '\'' => readIsIn cs
  | _ => none

/-- Conditions that are joined by `&&`. A text has no more of them than characters. -/
def readFrom : Nat → List Char → Option (List Condition)
  | 0, _ => none
  | fuel + 1, cs => do
    let (condition, rest) ← readCondition cs
    if rest.isEmpty then return [condition]
    let rest ← (rest.dropWhile Char.isWhitespace).dropPrefix? "&&".toList
    let conditions ← readFrom fuel (rest.dropWhile Char.isWhitespace)
    return condition :: conditions

/-- The conditions of a text. -/
def readConditions (text : String) : Option (List Condition) :=
  readFrom text.length text.toList

/-- Whether a text is a condition that a record passes. -/
def Passes (record : Entries Json) (text : String) : Prop :=
  ∃ conditions, readConditions text = some conditions ∧ ∀ c ∈ conditions, c.holds record

/-! ## Writing -/

/-- Whether literals can have a text on their line. -/
def OnOneLine (s : String) : Prop :=
  '\n' ∉ s.toList ∧ '\r' ∉ s.toList

instance (s : String) : Decidable (OnOneLine s) :=
  inferInstanceAs (Decidable (_ ∧ _))

theorem readLiteral_singleQuoted {s : String} (h : OnOneLine s) (rest : List Char) :
    readLiteral ((singleQuoted s).toList ++ rest) = some (s, rest) := by
  have hbarred : ∀ c ∈ s.toList, c ∉ literalRules.barred := by
    rintro c hc hmem
    rcases List.mem_pair.mp hmem with rfl | rfl
    · exact h.1 hc
    · exact h.2 hc
  have hread : readQuoted literalRules
      (escapeMarked ['\\', '\''] s.toList ++ literalRules.quote :: rest) = some (s.toList, rest) :=
    (readQuoted_escapeMarked_iff literalRules_unmarks).mpr ⟨hbarred, rfl⟩
  rw [singleQuoted, literal, String.toList_ofList, List.append_assoc, List.cons_append, readLiteral]
  rw [show ['\''] ++ rest = literalRules.quote :: rest from rfl, hread]
  simp

/-- The access to a property of the record. -/
def access (key : String) : String :=
  "record[" ++ singleQuoted key ++ "]"

theorem dropPrefix?_append (front rest : List Char) :
    (front ++ rest).dropPrefix? front = some rest :=
  List.dropPrefix?_append_of_beq rest BEq.rfl

theorem readAccess_access {key : String} (h : OnOneLine key) (rest : List Char) :
    readAccess ((access key).toList ++ rest) = some (key, rest) := by
  simp only [readAccess, access, String.toList_append, List.append_assoc, dropPrefix?_append,
    readLiteral_singleQuoted h, Option.bind_eq_bind, Option.bind_some, Option.pure_def]

namespace Condition

/-- A condition as it stands in code. -/
def text : Condition → String
  | .typeIs key word => "typeof " ++ access key ++ " === " ++ singleQuoted word
  | .isArray key => "Array.isArray(" ++ access key ++ ")"
  | .notNull key => access key ++ " !== null"
  | .isIn key => singleQuoted key ++ " in record"

/-- Whether all literals of a condition end on their lines. -/
def Writable : Condition → Prop
  | .typeIs key word => OnOneLine key ∧ OnOneLine word
  | .isArray key | .notNull key | .isIn key => OnOneLine key

/-- The character that the notation of a condition starts with. -/
def start : Condition → Char
  | .typeIs .. => 't'
  | .isArray .. => 'A'
  | .notNull .. => 'r'
  | .isIn .. => '\''

theorem text_typeIs (key word : String) :
    (typeIs key word).text = "typeof " ++ access key ++ " === " ++ singleQuoted word :=
  rfl

theorem text_isArray (key : String) : (isArray key).text = "Array.isArray(" ++ access key ++ ")" :=
  rfl

theorem text_notNull (key : String) : (notNull key).text = access key ++ " !== null" :=
  rfl

theorem text_isIn (key : String) : (isIn key).text = singleQuoted key ++ " in record" :=
  rfl

theorem exists_text_eq (c : Condition) : ∃ cs, c.text.toList = c.start :: cs := by
  cases c with
  | typeIs key word =>
      simp only [text_typeIs, String.append_assoc, String.toList_append]
      rw [String.toList_ofList]
      exact ⟨_, rfl⟩
  | isArray key =>
      simp only [text_isArray, String.append_assoc, String.toList_append]
      rw [String.toList_ofList]
      exact ⟨_, rfl⟩
  | notNull key =>
      simp only [text_notNull, access, String.append_assoc, String.toList_append]
      rw [String.toList_ofList]
      exact ⟨_, rfl⟩
  | isIn key =>
      simp only [text_isIn, singleQuoted, literal, String.toList_append, String.toList_ofList]
      exact ⟨_, rfl⟩

theorem start_not_isWhitespace (c : Condition) : c.start.isWhitespace = false := by
  cases c <;> rfl

/-- A condition is read back, whatever stands behind it. -/
theorem read_text {c : Condition} (h : c.Writable) (rest : List Char) :
    readCondition (c.text.toList ++ rest) = some (c, rest) := by
  have hhead : (c.text.toList ++ rest).head? = some c.start := by
    obtain ⟨cs, htext⟩ := c.exists_text_eq
    rw [htext]
    rfl
  simp only [readCondition, hhead]
  cases c with
  | typeIs key word =>
      simp only [start, readTypeIs, text_typeIs, String.toList_append, List.append_assoc,
        dropPrefix?_append, readAccess_access h.1, readLiteral_singleQuoted h.2,
        Option.bind_eq_bind, Option.bind_some, Option.pure_def]
  | isArray key =>
      simp only [start, readIsArray, text_isArray, String.toList_append, List.append_assoc,
        dropPrefix?_append, readAccess_access h, Option.bind_eq_bind, Option.bind_some,
        Option.pure_def]
  | notNull key =>
      simp only [start, readNotNull, text_notNull, String.toList_append, List.append_assoc,
        dropPrefix?_append, readAccess_access h, Option.bind_eq_bind, Option.bind_some,
        Option.pure_def]
  | isIn key =>
      simp only [start, readIsIn, text_isIn, String.toList_append, List.append_assoc,
        dropPrefix?_append, readLiteral_singleQuoted h, Option.bind_eq_bind, Option.bind_some,
        Option.pure_def]

end Condition

/-- Texts of conditions with `&&` between them, and white space around it. -/
inductive Conjunction : List Char → List Condition → Prop where
  | single {c : Condition} (hc : c.Writable) : Conjunction c.text.toList [c]
  | and {c : Condition} {front behind cs : List Char} {conditions : List Condition}
      (hc : c.Writable) (hfront : ∀ d ∈ front, d.isWhitespace)
      (hbehind : ∀ d ∈ behind, d.isWhitespace) (hrest : Conjunction cs conditions) :
      Conjunction (c.text.toList ++ (front ++ ("&&".toList ++ (behind ++ cs)))) (c :: conditions)

namespace Conjunction

variable {cs ds : List Char} {as bs : List Condition}

/-- No condition starts with white space. -/
theorem dropWhile_eq (h : Conjunction cs as) {behind : List Char}
    (hbehind : ∀ d ∈ behind, d.isWhitespace) :
    (behind ++ cs).dropWhile Char.isWhitespace = cs := by
  obtain ⟨c, ds, rfl⟩ : ∃ (c : Condition) (ds : List Char), cs = c.start :: ds := by
    cases h with
    | @single c hc => exact ⟨c, c.exists_text_eq⟩
    | @and c front behind cs as hc _ _ _ =>
        obtain ⟨ds, htext⟩ := c.exists_text_eq
        exact ⟨c, _, by rw [htext, List.cons_append]⟩
  rw [List.dropWhile_append_of_pos hbehind,
    List.dropWhile_cons_of_neg (by simp [c.start_not_isWhitespace])]

/-- Joined conditions are read back. -/
theorem read (h : Conjunction cs as) {fuel : Nat} (hfuel : as.length ≤ fuel) :
    readFrom fuel cs = some as := by
  induction h generalizing fuel with
  | @single c hc =>
      obtain ⟨fuel, rfl⟩ : ∃ n, fuel = n + 1 := ⟨fuel - 1, by simp at hfuel; omega⟩
      have hread := Condition.read_text hc []
      rw [List.append_nil] at hread
      rw [readFrom, hread]
      rfl
  | @and c front behind cs as hc hfront hbehind hrest ih =>
      obtain ⟨fuel, rfl⟩ : ∃ n, fuel = n + 1 := ⟨fuel - 1, by simp at hfuel; omega⟩
      have hnonempty : (front ++ ("&&".toList ++ (behind ++ cs))).isEmpty = false := by simp
      have hdrop : (front ++ ("&&".toList ++ (behind ++ cs))).dropWhile Char.isWhitespace =
          "&&".toList ++ (behind ++ cs) := by
        rw [List.dropWhile_append_of_pos hfront]
        rfl
      -- each condition takes one step of the fuel, and the blanks around the mark are skipped
      have hread : readFrom fuel cs = some as := ih (by simpa using hfuel)
      rw [readFrom, Condition.read_text hc]
      simp only [Option.bind_eq_bind, Option.bind_some, hnonempty, Bool.false_eq_true, if_false,
        hdrop, dropPrefix?_append, hrest.dropWhile_eq hbehind, hread, Option.pure_def]

theorem append (hcs : Conjunction cs as) (hds : Conjunction ds bs) {front behind : List Char}
    (hfront : ∀ d ∈ front, d.isWhitespace) (hbehind : ∀ d ∈ behind, d.isWhitespace) :
    Conjunction (cs ++ (front ++ ("&&".toList ++ (behind ++ ds)))) (as ++ bs) := by
  induction hcs with
  | single hc => exact and hc hfront hbehind hds
  | and hc hfront' hbehind' _ ih =>
      simp only [List.append_assoc, List.cons_append] at ih ⊢
      exact and hc hfront' hbehind' ih

theorem length_le (h : Conjunction cs as) : as.length ≤ cs.length := by
  induction h with
  | @single c hc =>
      obtain ⟨ds, htext⟩ := c.exists_text_eq
      simp [htext]
  | and hc _ _ _ ih =>
      have hjoin : "&&".toList.length = 2 := rfl
      simp only [List.length_cons, List.length_append, hjoin]
      omega

/-- What a record passes is that all conditions hold of it. -/
theorem passes_iff {text : String} (h : Conjunction text.toList as) {record : Entries Json} :
    Passes record text ↔ ∀ c ∈ as, c.holds record := by
  have hread : readConditions text = some as := h.read h.length_le
  simp [Passes, hread]

end Conjunction

/-! ## Checks -/

/-- The conditions that a required property of a kind is checked by. -/
def conditions (key : String) : SchemaKind → List Condition
  | .leaf .string => [.typeIs key "string"]
  | .leaf .number => [.typeIs key "number"]
  | .leaf .boolean => [.typeIs key "boolean"]
  | .array => [.isArray key]
  | .object => [.typeIs key "object", .notNull key]
  | .leaf .null | .leaf .unknown => [.isIn key]

/-- A check is the text of its conditions. -/
theorem conjunction_guardCheck {f : Field} (hname : OnOneLine f.name) :
    Conjunction (guardCheck f).toList (conditions f.name f.schema.kind) := by
  have htypeIs : ∀ word, OnOneLine word →
      Conjunction ("typeof " ++ access f.name ++ (" === " ++ singleQuoted word)).toList
        [.typeIs f.name word] := by
    intro word hword
    rw [← String.append_assoc]
    exact .single (c := .typeIs f.name word) ⟨hname, hword⟩
  cases hs : f.schema with
  | object ps required ref =>
      have hnull : Conjunction (access f.name ++ " !== null").toList [.notNull f.name] :=
        .single (c := .notNull f.name) hname
      have hblank : ∀ d ∈ [' '], d.isWhitespace := List.forall_mem_singleton.mpr rfl
      have hboth := (htypeIs "object" (by decide)).append hnull hblank hblank
      have htext : guardCheck f = "typeof " ++ access f.name ++ (" === " ++ singleQuoted "object") ++
          (" && " ++ (access f.name ++ " !== null")) := by
        rw [guardCheck, hs]
        simp only [access, String.append_assoc]
        rfl
      rw [htext, String.toList_append, String.toList_append (s := " && ")]
      exact hboth
  | array items ref =>
      rw [guardCheck, hs]
      exact .single (c := .isArray f.name) hname
  | leaf l ref =>
      rw [guardCheck, hs]
      cases l with
      | string => exact htypeIs "string" (by decide)
      | number => exact htypeIs "number" (by decide)
      | boolean => exact htypeIs "boolean" (by decide)
      | null => exact .single (c := .isIn f.name) hname
      | unknown => exact .single (c := .isIn f.name) hname

/-- The checks of the guard of a type. -/
def checks (t : TypeSource) : List String :=
  (t.fields.filter (·.required)).map guardCheck

/-- What a guard with checks returns. -/
def guardBody (t : TypeSource) : String :=
  String.intercalate " &&\n    " (checks t)

/-- The checks of a guard hold together exactly if what it returns does. -/
theorem passes_intercalate_iff {texts : List String} (hne : texts ≠ [])
    (htexts : ∀ text ∈ texts, ∃ as, Conjunction text.toList as) {record : Entries Json} :
    Passes record (String.intercalate " &&\n    " texts) ↔ ∀ text ∈ texts, Passes record text := by
  suffices hjoined : ∃ as, Conjunction (String.intercalate " &&\n    " texts).toList as ∧
      ((∀ c ∈ as, c.holds record) ↔ ∀ text ∈ texts, Passes record text) by
    obtain ⟨as, hjoin, hholds⟩ := hjoined
    rw [hjoin.passes_iff, hholds]
  induction texts with
  | nil => exact absurd rfl hne
  | cons text texts ih =>
      obtain ⟨⟨as, has⟩, hrest⟩ := List.forall_mem_cons.mp htexts
      cases texts with
      | nil =>
          refine ⟨as, ?_, ?_⟩
          · simpa using has
          · rw [List.forall_mem_singleton, has.passes_iff]
      | cons other texts =>
          obtain ⟨bs, hbs, hholds⟩ := ih (by simp) hrest
          refine ⟨as ++ bs, ?_, ?_⟩
          · have hblank : ∀ d ∈ [' '], d.isWhitespace := List.forall_mem_singleton.mpr rfl
            have hbreak : ∀ d ∈ "\n    ".toList, d.isWhitespace := List.all_eq_true.mp rfl
            have hboth := has.append hbs hblank hbreak
            convert hboth using 1
            simp [String.intercalate_cons_cons]
          · rw [List.forall_mem_append, List.forall_mem_cons, has.passes_iff, hholds]

/-! ## Kinds of values -/

/-- Whether a guard that was made for one value takes another: one of its kind, or a list for an
object. -/
def Accepts (made taken : Json) : Prop :=
  kindOf taken = kindOf made ∨ kindOf made = .object ∧ kindOf taken = .array

/-- The conditions for the kind of a value hold exactly if the value of the property is accepted. -/
theorem holds_conditions_iff {v : Json} (hv : v ≠ .null) {record : Entries Json} {key : String} :
    (∀ c ∈ conditions key (kindOf v), c.holds record) ↔
      ∃ x, record.get? key = some x ∧ Accepts v x := by
  cases hx : record.get? key with
  | none =>
      cases v with
      | null => exact absurd rfl hv
      | _ => simp [kindOf, conditions, Condition.holds, hx, typeWord]
  | some x =>
      cases v with
      | null => exact absurd rfl hv
      | _ => cases x <;> simp [kindOf, conditions, Condition.holds, hx, typeWord, Accepts, Json.kind]

/-! ## Guards in code -/

theorem guardLines_infix_code {w : Writer} (hvalidation : w.on .validation) (t : TypeSource) :
    guardLines w t <:+: code w t := by
  rw [code, hvalidation]
  exact ⟨_, Source.onlyIf (w.on .factoryMethods) (factoryLines w t), rfl⟩

theorem guardBody_mem_guardLines {w : Writer} {t : TypeSource} (hchecks : checks t ≠ []) :
    "    " ++ guardBody t ∈ guardLines w t := by
  have hsome : ((t.fields.filter (·.required)).map guardCheck).isEmpty = false :=
    List.isEmpty_eq_false_iff.mpr hchecks
  rw [guardLines]
  simp only [hsome]
  simp [guardBody, checks]

end DtoForge.TypeScript

namespace DtoForge.Generator

open TypeScript Schema

variable {g : Generator}

/-- Names are kept in TypeScript unless snake case is asked for. -/
theorem fieldCase_of_typescript (htarget : g.target = .typescript)
    (hnaming : g.options.naming ≠ .snake) : g.writer.fieldCase = .original := by
  rw [Writer.fieldCase, writer, htarget]
  simp [Target.dialect, TypeScript.dialect, hnaming]

/-- The field of an entry of an example. -/
structure FieldOf (e : RawText × Json) (f : Field) : Prop where
  key_eq : e.1 = f.name
  kind_eq : f.schema.kind = kindOf e.2
  required_iff : f.required ↔ e.2 ≠ .null

/-- The fields of an example with whole keys are those of its entries. -/
theorem fields_of_infer (htarget : g.target = .typescript) (hnaming : g.options.naming ≠ .snake)
    {entries : Entries Json} (hkeys : entries.keys.Nodup)
    (hwhole : ∀ e ∈ entries, e.1.isWhole = true) {stem : RawText} {t : TypeSource}
    (h : g.source (Schema.infer (.object entries)) stem = .ok t) :
    (∀ f ∈ t.fields, ∃ e ∈ entries, FieldOf e f) ∧ ∀ e ∈ entries, ∃ f ∈ t.fields, FieldOf e f := by
  obtain ⟨fields, references, hfields, -, rfl⟩ := source_eq_ok_iff.mp h
  have hproperties := g.writer.properties_of_fieldsFrom hfields
  have hnames := g.writer.name_eq_wireName (fieldCase_of_typescript htarget hnaming) hfields
  rw [inferAll_eq_map, List.map_map] at hproperties
  have hfieldOf : ∀ e ∈ entries, ∀ f ∈ fields, (f.wireName, f.required, f.schema) =
      (e.1.legible, (Schema.infer (.object entries)).isRequired e.1, Schema.infer e.2) →
      FieldOf e f := by
    intro e he f hf heq
    simp only [Prod.mk.injEq] at heq
    obtain ⟨hkey, hrequired, hschema⟩ := heq
    refine ⟨?_, by rw [hschema, kind_infer], ?_⟩
    · rw [hnames f hf, hkey]
      exact RawText.eq_legible_of_isWhole (hwhole e he)
    · rw [hrequired]
      exact contains_requiredNames_iff hkeys he
  constructor
  · intro f hf
    have hmem := List.mem_map_of_mem (f := fun f => (f.wireName, f.required, f.schema)) hf
    rw [hproperties] at hmem
    obtain ⟨e, he, heq⟩ := List.mem_map.mp hmem
    exact ⟨e, he, hfieldOf e he f hf heq.symm⟩
  · intro e he
    have hmem := List.mem_map_of_mem (f := fun e : RawText × Json =>
      (e.1.legible, (Schema.infer (.object entries)).isRequired e.1, Schema.infer e.2)) he
    obtain ⟨f, hf, heq⟩ := List.mem_map.mp (hproperties.symm ▸ hmem)
    exact ⟨f, hf, hfieldOf e he f hf heq⟩

theorem conjunction_of_fieldOf {e : RawText × Json} {f : Field} (hf : FieldOf e f)
    (hkey : OnOneLine f.name) :
    Conjunction (guardCheck f).toList (conditions f.name (kindOf e.2)) := by
  rw [← hf.kind_eq]
  exact conjunction_guardCheck hkey

/-- The checks for the fields of an example, entry by entry. -/
theorem passes_checks_iff {entries record : Entries Json} {t : TypeSource}
    (hbreaks : ∀ e ∈ entries, OnOneLine e.1.legible)
    (hfields : ∀ f ∈ t.fields, ∃ e ∈ entries, FieldOf e f)
    (hentries : ∀ e ∈ entries, ∃ f ∈ t.fields, FieldOf e f) :
    (∀ check ∈ checks t, Passes record check) ↔
      ∀ e ∈ entries, e.2 ≠ .null → ∃ x, record.get? e.1 = some x ∧ Accepts e.2 x := by
  have hname : ∀ e ∈ entries, ∀ f, FieldOf e f → OnOneLine f.name := by
    intro e he f hof
    have hbreak := hbreaks e he
    rwa [hof.key_eq] at hbreak
  constructor
  · intro hpasses e he hne
    obtain ⟨f, hf, hof⟩ := hentries e he
    have hmem : guardCheck f ∈ checks t :=
      List.mem_map_of_mem (List.mem_filter.mpr ⟨hf, hof.required_iff.mpr hne⟩)
    have hholds := (conjunction_of_fieldOf hof (hname e he f hof)).passes_iff.mp (hpasses _ hmem)
    rw [hof.key_eq]
    exact (holds_conditions_iff hne).mp hholds
  · intro haccepted check hmem
    obtain ⟨f, hf, rfl⟩ := List.mem_map.mp hmem
    obtain ⟨hf, hrequired⟩ := List.mem_filter.mp hf
    obtain ⟨e, he, hof⟩ := hfields f hf
    have hne := hof.required_iff.mp hrequired
    have haccepts := haccepted e he hne
    rw [hof.key_eq] at haccepts
    rw [(conjunction_of_fieldOf hof (hname e he f hof)).passes_iff]
    exact (holds_conditions_iff hne).mpr haccepts

/-! ## Main result -/

/-- **What type guards accept.** Take an example whose keys are different texts, without halves and
line breaks, and the interface that TypeScript code with guards declares for it when names are kept.
The example passes all checks. A record passes them exactly if every property of the example that is
not null is there with a value of its kind, or with a list where the example has an object. A guard
that checks anything returns what is passed exactly if all checks are. The code is always
generated. -/
theorem guard_accepts_iff {g : Generator} (htarget : g.target = .typescript)
    (hnaming : g.options.naming ≠ .snake) (hvalidation : g.options.enabled .validation)
    {entries : Entries Json} (hkeys : entries.keys.Nodup)
    (hlines : ∀ key ∈ entries.keys, ∃ s : String, key = s ∧ OnOneLine s) :
    (∀ name, ∃ code, g.generate (Schema.infer (.object entries)) (.str name) = .ok code) ∧
    ∀ name code, g.generate (Schema.infer (.object entries)) name = .ok code →
      ∃ stem t, name = .str stem ∧ g.source (Schema.infer (.object entries)) stem = .ok t ∧
        code = g.written t ∧ guardLines g.writer t <:+: g.codeOf t ∧
        (∀ check ∈ checks t, Passes entries check) ∧
        (∀ record : Entries Json, (∀ check ∈ checks t, Passes record check) ↔
          ∀ e ∈ entries, e.2 ≠ .null → ∃ x, record.get? e.1 = some x ∧ Accepts e.2 x) ∧
        (checks t ≠ [] → "    " ++ guardBody t ∈ guardLines g.writer t ∧
          ∀ record, Passes record (guardBody t) ↔ ∀ check ∈ checks t, Passes record check) := by
  constructor
  · intro name
    refine g.exists_generate_of_ne_go (by simp [htarget]) rfl ?_ name
    intro p hp ref href
    have hinfer : (Schema.infer (.object entries)).properties =
        entries.map fun e => (e.1, Schema.infer e.2) := inferAll_eq_map entries
    rw [hinfer] at hp
    obtain ⟨e, -, rfl⟩ := List.mem_map.mp hp
    rw [refOf_eq_none (infer_unreferenced e.2)] at href
    cases href
  · intro name code hcode
    obtain ⟨stem, t, rfl, ht, rfl⟩ := exists_source_of_generate_eq_ok hcode
    have hlines : ∀ e ∈ entries, e.1.isWhole = true ∧ OnOneLine e.1.legible := by
      intro e he
      obtain ⟨s, hs, hline⟩ := hlines e.1 (List.mem_map_of_mem he)
      rw [hs]
      exact ⟨rfl, hline⟩
    have hbreaks : ∀ e ∈ entries, OnOneLine e.1.legible := fun e he => (hlines e he).2
    obtain ⟨hfields, hentries⟩ :=
      fields_of_infer htarget hnaming hkeys (fun e he => (hlines e he).1) ht
    refine ⟨stem, t, rfl, ht, rfl, ?_, ?_, ?_, ?_⟩
    · rw [codeOf, htarget]
      exact guardLines_infix_code (w := g.writer) hvalidation t
    · rw [passes_checks_iff hbreaks hfields hentries]
      exact fun e he _ => ⟨e.2, (Entries.mem_iff_get? hkeys).mp he, .inl rfl⟩
    · exact fun record => passes_checks_iff hbreaks hfields hentries
    · intro hchecks
      refine ⟨guardBody_mem_guardLines hchecks, fun record => passes_intercalate_iff hchecks ?_⟩
      intro check hmem
      obtain ⟨f, hf, rfl⟩ := List.mem_map.mp hmem
      obtain ⟨e, he, hof⟩ := hfields f (List.mem_filter.mp hf).1
      have hbreak := hbreaks e he
      rw [hof.key_eq] at hbreak
      exact ⟨_, conjunction_of_fieldOf hof hbreak⟩

/-- An example with values of several kinds, and a record that has a text for a number. -/
theorem guard_accepts_iff_points :
    let g : Generator := ⟨.typescript, { setting := fun f => .bool (f = .validation) }⟩
    let entries : Entries Json :=
      [("id", .int 1), ("it's", .list []), ("address", .object [("city", .str "Oslo")]),
        ("note", .null), ("back\\slash", .bool true)]
    let record : Entries Json :=
      [("id", .str "1"), ("it's", .list []), ("address", .object []), ("back\\slash", .bool true)]
    g.target = .typescript ∧ g.options.naming ≠ .snake ∧ g.options.enabled .validation ∧
      entries.keys.Nodup ∧ (∀ key ∈ entries.keys, ∃ s : String, key = s ∧ OnOneLine s) ∧
      ∃ t, g.source (Schema.infer (.object entries)) "Root" = .ok t ∧
        (∀ check ∈ checks t, Passes entries check) ∧
        ¬ ∀ check ∈ checks t, Passes record check := by
  intro g entries record
  have hkeys : entries.keys.Nodup := by decide
  have hlines : ∀ key ∈ entries.keys, ∃ s : String, key = s ∧ OnOneLine s := by
    simp [entries, Entries.keys, OnOneLine]
  have hnaming : g.options.naming ≠ .snake := by decide
  obtain ⟨hgenerates, haccepts⟩ := guard_accepts_iff (g := g) rfl hnaming rfl hkeys hlines
  obtain ⟨code, hcode⟩ := hgenerates "Root"
  obtain ⟨stem, t, hstem, ht, -, -, hexample, hrecord, -⟩ := haccepts _ _ hcode
  obtain rfl := Json.str.inj hstem
  refine ⟨rfl, hnaming, rfl, hkeys, hlines, t, ht, hexample, ?_⟩
  rw [hrecord]
  intro h
  obtain ⟨x, hx, haccepts⟩ := h ("id", .int 1) List.mem_cons_self (by simp)
  obtain rfl : Json.str "1" = x := Option.some.inj hx
  simp [Accepts, kindOf] at haccepts

/-- A list is accepted where the example has an object. -/
theorem exists_list_accepted :
    let g : Generator := ⟨.typescript, { setting := fun f => .bool (f = .validation) }⟩
    let entries : Entries Json := [("a", .object [])]
    let record : Entries Json := [("a", .list [])]
    ∃ t, g.source (Schema.infer (.object entries)) "Root" = .ok t ∧
      checks t = ["typeof record['a'] === 'object' && record['a'] !== null"] ∧
      ∀ check ∈ checks t, Passes record check := by
  intro g entries record
  have hchecks : (g.source (Schema.infer (.object entries)) "Root").map checks =
      .ok ["typeof record['a'] === 'object' && record['a'] !== null"] := by decide +kernel
  obtain ⟨t, ht, hchecks⟩ := Steps.exists_of_map_eq_ok hchecks
  refine ⟨t, ht, hchecks, ?_⟩
  rw [hchecks, List.forall_mem_singleton]
  exact ⟨[.typeIs "a" "object", .notNull "a"], by decide +kernel, by decide⟩

end DtoForge.Generator
