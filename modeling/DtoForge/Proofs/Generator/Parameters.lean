import DtoForge.Proofs.Generator.Members
import DtoForge.Proofs.Naming.Forms

/-! # Parameters — the arguments of constructors

The parameters of a Go constructor are named after the fields by a table of their own, so they are
different, and no word asked for is one of the language. But the numbers come later: `float3` and
`float31` are no words of the language, and where both are given already the next field that asks for
`float3` gets `float32`. There are five such pairs of a word and a number (`outgrown`), and nothing
else can make a parameter shadow what the language declares (`parameterNames_predeclared_iff`). -/

namespace DtoForge

namespace Go

open Naming

/-! ## Parameters as requests -/

/-- The names of the parameters for fields. -/
def parameterNames (fields : List Field) : List String :=
  (parameters fields).map (·.name)

/-- What the parameter of a field asks for. -/
def request (f : Field) : Naming.Request :=
  ⟨f.name, .camel, "_"⟩

theorem request_plain (f : Field) : (request f).Plain := by
  show '\x00' ∉ "_".toList
  decide

/-- The names of parameters are what a fresh table answers. -/
theorem parameterNames_eq (fields : List Field) :
    parameterNames fields =
      answers dialect.vocabulary ((fields.filter (·.required)).map request) := by
  -- from any table on, by induction on the fields
  have hfrom : ∀ (fs : List Field) (table : NameTable),
      (parametersFrom table fs).map (·.name) =
        (NameTable.answerAll dialect.vocabulary table (fs.map request)).1 := by
    intro fs
    induction fs with
    | nil => exact fun _ => rfl
    | cons f fs ih =>
        intro table
        rw [parametersFrom, List.map_cons, List.map_cons, ih]
        rfl
  exact hfrom _ {}

section

variable {fields : List Field}

theorem requests_plain : ∀ r ∈ (fields.filter (·.required)).map request, r.Plain := by
  intro r hr
  obtain ⟨f, -, rfl⟩ := List.mem_map.mp hr
  exact request_plain f

theorem requests_nodup (hnames : (fields.map (·.name)).Nodup) :
    ((fields.filter (·.required)).map request).Nodup := by
  have hkept : ((fields.filter (·.required)).map (·.name)).Nodup :=
    hnames.sublist (List.filter_sublist.map _)
  have heq : (fields.filter (·.required)).map request =
      ((fields.filter (·.required)).map (·.name)).map fun name => ⟨name, .camel, "_"⟩ := by
    rw [List.map_map]
    rfl
  rw [heq]
  exact hkept.map fun a b hab => RawText.whole.inj (congrArg Naming.Request.name hab)

/-- Fields with different names have parameters with different names. -/
theorem parameterNames_nodup (hnames : (fields.map (·.name)).Nodup) :
    (parameterNames fields).Nodup := by
  rw [parameterNames_eq]
  exact answers_nodup _ requests_plain (requests_nodup hnames)

/-! ## Words with numbers -/

theorem vocabulary_unmarked : dialect.vocabulary.Unmarked := by
  intro word hword
  revert word
  decide +kernel

/-- The word that a field asks for is an identifier that the language does not take. -/
theorem word_request_legal (f : Field) :
    isIdentifier ((request f).word dialect.vocabulary) ∧
      dialect.vocabulary.takes ((request f).word dialect.vocabulary) = false := by
  have hadmits := (admits_word vocabulary_unmarked (by decide : Casing.camel ≠ .original) f.name).1
  rwa [Vocabulary.admits, Bool.and_eq_true, Bool.not_eq_true'] at hadmits

/-- Words that the language does not take, with the numbers that make a word of the language of
them. -/
def outgrown : List (String × Nat) :=
  [("float", 32), ("float", 64), ("float3", 2), ("float6", 4), ("int6", 4)]

/-- Wherever the digits at the end of a word of the language are cut off, what stands before them is
a word of the language as well, or the pair is listed. -/
theorem outgrown_of_split :
    ∀ word ∈ keywords ++ predeclared, ∀ k < word.toList.length,
      (word.toList.drop k).all Char.isDigit ∧
        dialect.vocabulary.takes (String.ofList (word.toList.take k)) = false →
      (String.ofList (word.toList.take k), Nat.ofDigitChars 10 (word.toList.drop k) 0) ∈ outgrown := by
  decide +kernel

theorem numbered_outgrown {word : String} {n : Nat} (h : (word, n) ∈ outgrown) :
    numbered word n ∈ predeclared ∧ numbered word n ∉ keywords := by
  have hlisted : ∀ o ∈ outgrown, numbered o.1 o.2 ∈ predeclared ∧ numbered o.1 o.2 ∉ keywords := by
    decide +kernel
  exact hlisted _ h

/-- The listed words are asked for by the fields that have them as their camel case. -/
theorem word_request_iff {word : String} {n : Nat} (h : (word, n) ∈ outgrown) (f : Field) :
    (request f).word dialect.vocabulary = word ↔ camel (clean f.name) = word := by
  have hplain : ∀ o ∈ outgrown, dialect.vocabulary.takes o.1 = false ∧
      o.1.toList.head?.any Char.isAlpha ∧ o.1.toList.getLast? ≠ some '_' := by decide +kernel
  obtain ⟨hfree, hstart, hlast⟩ := hplain _ h
  exact Request.word_eq_iff (by decide) hfree hstart hlast f.name

/-- What the numbers make of a word that the language does not take. -/
theorem numbered_mem_iff {word : String} (hword : dialect.vocabulary.takes word = false) {n : Nat} :
    numbered word n ∈ keywords ++ predeclared ↔ (word, n) ∈ outgrown := by
  constructor
  · intro hmem
    have hn : n ≠ 0 := by
      rintro rfl
      have htakes : dialect.vocabulary.takes word := by
        simpa [Vocabulary.takes, numbered, dialect] using hmem
      rw [hword] at htakes
      cases htakes
    rw [numbered, if_neg hn] at hmem
    have hdigits : (toString n).toList.all Char.isDigit :=
      List.all_eq_true.mpr fun d hd => Text.isDigit_of_mem_toString hd
    have hlength : 0 < (toString n).toList.length :=
      List.length_pos_of_ne_nil (by simp)
    have hsplit := outgrown_of_split _ hmem word.toList.length
      (by rw [String.toList_append, List.length_append]; omega)
    simp only [String.toList_append, List.take_left, List.drop_left, String.ofList_toList,
      Text.ofDigitChars_toString] at hsplit
    exact hsplit ⟨hdigits, hword⟩
  · intro hmem
    exact List.mem_append_right _ (numbered_outgrown hmem).1

/-! ## Which parameters are given -/

/-- Whether a word is asked for when all its forms below a number are gone. -/
def AsksLate (fields : List Field) (word : String) (n : Nat) : Prop :=
  ∃ before f after, fields = before ++ f :: after ∧ f.required ∧ camel (clean f.name) = word ∧
    ∀ m < n, numbered word m ∈ parameterNames before

/-- A parameter is a form of the word of its field, and all smaller forms are given before. -/
theorem mem_parameterNames_iff (hnames : (fields.map (·.name)).Nodup) {p : String} :
    p ∈ parameterNames fields ↔ ∃ before f after n, fields = before ++ f :: after ∧ f.required ∧
      p = numbered ((request f).word dialect.vocabulary) n ∧
      ∀ m < n, numbered ((request f).word dialect.vocabulary) m ∈ parameterNames before := by
  rw [parameterNames_eq, mem_answers_iff requests_plain (requests_nodup hnames)]
  constructor
  · rintro ⟨front, r, behind, n, hsplit, rfl, hused⟩
    obtain ⟨kept, rest, hkept, rfl, hrest⟩ := List.map_eq_append_iff.mp hsplit
    obtain ⟨f, rest, rfl, rfl, -⟩ := List.map_eq_cons_iff.mp hrest
    obtain ⟨before, fs, rfl, rfl, hfs⟩ := List.filter_eq_append_iff.mp hkept
    obtain ⟨skipped, after, rfl, hskipped, hf, -⟩ := List.filter_eq_cons_iff.mp hfs
    refine ⟨before ++ skipped, f, after, n, by simp, hf, rfl, ?_⟩
    rwa [parameterNames_eq, List.filter_append, List.filter_eq_nil_iff.mpr hskipped, List.append_nil]
  · rintro ⟨before, f, after, n, rfl, hf, rfl, hused⟩
    refine ⟨(before.filter (·.required)).map request, request f,
      (after.filter (·.required)).map request, n, ?_, rfl, ?_⟩
    · rw [List.filter_append, List.filter_cons_of_pos hf, List.map_append, List.map_cons]
    · rwa [parameterNames_eq] at hused

/-- **Parameters that the language declares.** A parameter shadows what the language declares exactly
if one of the listed words is asked for when all its smaller forms are gone. -/
theorem exists_predeclared_iff (hnames : (fields.map (·.name)).Nodup) :
    (∃ p ∈ parameterNames fields, p ∈ predeclared) ↔
      ∃ word n, (word, n) ∈ outgrown ∧ AsksLate fields word n := by
  constructor
  · rintro ⟨p, hp, hdeclared⟩
    obtain ⟨before, f, after, n, hsplit, hf, rfl, hused⟩ := (mem_parameterNames_iff hnames).mp hp
    have hlisted := (numbered_mem_iff (word_request_legal f).2).mp
      (List.mem_append_right keywords hdeclared)
    exact ⟨_, n, hlisted, before, f, after, hsplit, hf, ((word_request_iff hlisted f).mp rfl), hused⟩
  · rintro ⟨word, n, hlisted, before, f, after, hsplit, hf, hcamel, hused⟩
    have hword := (word_request_iff hlisted f).mpr hcamel
    refine ⟨numbered word n, ?_, (numbered_outgrown hlisted).1⟩
    rw [mem_parameterNames_iff hnames]
    exact ⟨before, f, after, n, hsplit, hf, by rw [hword], by rwa [hword]⟩

/-- Parameters are identifiers and no keywords. -/
theorem parameterNames_legal (hnames : (fields.map (·.name)).Nodup) :
    ∀ p ∈ parameterNames fields, isIdentifier p ∧ p ∉ keywords := by
  intro p hp
  obtain ⟨before, f, after, n, -, -, rfl, -⟩ := (mem_parameterNames_iff hnames).mp hp
  obtain ⟨hidentifier, hfree⟩ := word_request_legal f
  refine ⟨?_, ?_⟩
  · rw [numbered]
    split
    · exact hidentifier
    · exact isIdentifier_append_toString hidentifier n
  · intro hmem
    have hlisted := (numbered_mem_iff hfree).mp (List.mem_append_left predeclared hmem)
    exact (numbered_outgrown hlisted).2 hmem

end

/-- The lines of a struct end with its constructor. -/
theorem constructorLines_suffix_code {w : Writer} (hfactory : w.on .factoryMethods) (t : TypeSource) :
    constructorLines t <:+ code w t := by
  rw [code, hfactory]
  exact List.suffix_append _ _

end Go

/-! ## Main result -/

namespace Generator

/-- **The parameters of Go constructors.** They are different identifiers and no keywords. One of them
shadows what the language declares exactly if one of five words is asked for when all its forms below
a number are gone, as `float3` is by a field that comes behind the parameters `float3` and `float31`.
For objects whose references are texts, a struct with its constructor is generated when the package
is a text. -/
theorem parameterNames_predeclared_iff {g : Generator} (htarget : g.target = .go)
    (hfactory : g.options.enabled .factoryMethods) {schema : Schema}
    (hkeys : schema.properties.keys.Nodup) :
    ((∃ text, Go.packageName g.options = .str text) → schema.isObject = true →
      (∀ p ∈ schema.properties, ∀ ref, Writer.refOf p.2 = some ref → ∃ stem, ref = .str stem) →
      ∀ name, ∃ code, g.generate schema (.str name) = .ok code) ∧
    ∀ name code, g.generate schema name = .ok code →
      ∃ stem t, name = .str stem ∧ g.source schema stem = .ok t ∧ code = g.written t ∧
        Go.constructorLines t <:+ g.codeOf t ∧
        (Go.parameterNames t.fields).Nodup ∧
        (∀ p ∈ Go.parameterNames t.fields, Naming.isIdentifier p ∧ p ∉ Go.keywords) ∧
        ((∃ p ∈ Go.parameterNames t.fields, p ∈ Go.predeclared) ↔
          ∃ word n, (word, n) ∈ Go.outgrown ∧ Go.AsksLate t.fields word n) := by
  have hcase : g.writer.fieldCase ≠ .original := fieldCase_ne_original fun h => by
    rw [htarget] at h
    cases h
  constructor
  · rintro ⟨text, htext⟩ hobject hrefs name
    refine g.exists_generate_of_refOf (fun v hv => ⟨text, ?_⟩) hobject hrefs name
    rw [packageClause?, htarget] at hv
    rw [← htext, Option.some.inj hv]
  · intro name code hcode
    obtain ⟨stem, t, rfl, ht, rfl⟩ := exists_source_of_generate_eq_ok hcode
    have hnames := names_nodup_of_source hcase hkeys ht
    refine ⟨stem, t, rfl, ht, rfl, ?_, Go.parameterNames_nodup hnames,
      Go.parameterNames_legal hnames, Go.exists_predeclared_iff hnames⟩
    rw [codeOf, htarget]
    exact Go.constructorLines_suffix_code (w := g.writer) hfactory t

/-- Properties that are words of the language, and two that ask for one parameter. -/
theorem parameterNames_predeclared_iff_words :
    let g : Generator := ⟨.go, { setting := fun f => .bool (f = .factoryMethods) }⟩
    let leaf : Schema := .leaf .string none
    let schema : Schema :=
      .object [("type", leaf), ("int", leaf), ("float3", leaf), ("f_l_o_a_t_3", leaf)]
        [.str "type", .str "int", .str "float3", .str "f_l_o_a_t_3"] none
    g.target = .go ∧ g.options.enabled .factoryMethods ∧ schema.properties.keys.Nodup ∧
      ∃ t, g.source schema "Root" = .ok t ∧
        Go.parameterNames t.fields = ["type_", "int_", "float3", "float31"] ∧
        ¬ ∃ word n, (word, n) ∈ Go.outgrown ∧ Go.AsksLate t.fields word n := by
  intro g leaf schema
  have hkeys : schema.properties.keys.Nodup := by decide
  have hrefs : ∀ p ∈ schema.properties, ∀ ref, Writer.refOf p.2 = some ref →
      ∃ stem, ref = .str stem := by
    simp [schema, leaf, Schema.properties, Writer.refOf, Writer.itemOf]
  obtain ⟨hgenerates, hparameters⟩ := parameterNames_predeclared_iff (g := g) rfl rfl hkeys
  obtain ⟨code, hcode⟩ := hgenerates ⟨"models", rfl⟩ rfl hrefs "Root"
  obtain ⟨stem, t, hstem, ht, -, -, -, -, hdeclared⟩ := hparameters _ _ hcode
  obtain rfl := Json.str.inj hstem
  have hnames : (g.source schema "Root").map (fun t => Go.parameterNames t.fields) =
      .ok ["type_", "int_", "float3", "float31"] := by decide +kernel
  rw [ht] at hnames
  have hnames : Go.parameterNames t.fields = ["type_", "int_", "float3", "float31"] :=
    Except.ok.inj hnames
  refine ⟨rfl, rfl, hkeys, t, ht, hnames, ?_⟩
  rw [← hdeclared, hnames]
  decide

/-- The number that tells a parameter from two others makes it a type of the language. -/
theorem exists_parameter_predeclared :
    let g : Generator := ⟨.go, { setting := fun f => .bool (f = .factoryMethods) }⟩
    let leaf : Schema := .leaf .string none
    let schema : Schema :=
      .object [("float31", leaf), ("float3", leaf), ("f_l_o_a_t_3", leaf)]
        [.str "float31", .str "float3", .str "f_l_o_a_t_3"] none
    g.options.enabled .factoryMethods ∧
      ∃ t, g.source schema "Root" = .ok t ∧
        Go.parameterNames t.fields = ["float31", "float3", "float32"] ∧
        ∃ p ∈ Go.parameterNames t.fields, p ∈ Go.predeclared := by
  intro g leaf schema
  have hnames : (g.source schema "Root").map (fun t => Go.parameterNames t.fields) =
      .ok ["float31", "float3", "float32"] := by decide +kernel
  obtain ⟨t, ht, hnames⟩ := Steps.exists_of_map_eq_ok hnames
  refine ⟨rfl, t, ht, hnames, ?_⟩
  rw [hnames]
  exact ⟨"float32", by decide, by decide⟩

end Generator

end DtoForge
