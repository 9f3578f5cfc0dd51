import DtoForge.Generator.Python
import DtoForge.Proofs.Generator.Names

/-! # Type expressions — the names in the types of fields

A type is written as an expression of names and subscripts. Generation looks for a name by cutting the
text of a type into words. The words of an expression are its names, as far as these have only the
characters of words, so the search finds the names of the expression and no others
(`usesName_text_iff`). -/

namespace DtoForge.Python

/-! ## Expressions -/

/-- A type expression. -/
inductive TypeExpr where
  | name (n : String)
  | subscript (head : String) (argument : TypeExpr)
  | pair (first second : TypeExpr)

namespace TypeExpr

/-- The text of an expression. -/
def text : TypeExpr → String
  | .name n => n
  | .subscript head argument => head ++ "[" ++ argument.text ++ "]"
  | .pair first second => first.text ++ ", " ++ second.text

/-- The names in an expression. -/
def names : TypeExpr → List String
  | .name n => [n]
  | .subscript head argument => head :: argument.names
  | .pair first second => first.names ++ second.names

/-- Whether all names have only the characters of words. -/
def Plain (e : TypeExpr) : Prop :=
  ∀ n ∈ e.names, ∀ c ∈ n.toList, Naming.isWordChar c

theorem plain_subscript_iff {head : String} {argument : TypeExpr} :
    (subscript head argument).Plain ↔
      (∀ c ∈ head.toList, Naming.isWordChar c) ∧ argument.Plain := by
  simp only [Plain, names, List.forall_mem_cons]

theorem plain_pair_iff {first second : TypeExpr} :
    (pair first second).Plain ↔ first.Plain ∧ second.Plain := by
  simp only [Plain, names, List.forall_mem_append]

end TypeExpr

/-! ## Words -/

/-- The words of a text, with empty ones between two characters that belong to none. -/
abbrev words (cs : List Char) : List (List Char) :=
  usesName.words [] cs

theorem words_append_cons {c : Char} (hc : Naming.isWordChar c = false) (as bs : List Char) :
    words (as ++ c :: bs) = words as ++ words bs := by
  -- whatever stands before, by induction on it
  suffices h : ∀ current, usesName.words current (as ++ c :: bs) =
      usesName.words current as ++ words bs from h []
  induction as with
  | nil =>
      intro current
      simp [usesName.words, hc]
  | cons a as ih =>
      intro current
      rw [List.cons_append, usesName.words, usesName.words]
      split
      · exact ih _
      · rw [ih, List.cons_append]

theorem words_of_plain {cs : List Char} (h : ∀ c ∈ cs, Naming.isWordChar c) : words cs = [cs] := by
  suffices hwords : ∀ current, usesName.words current cs = [current.reverse ++ cs] from hwords []
  induction cs with
  | nil =>
      intro current
      rw [usesName.words, List.append_nil]
  | cons c cs ih =>
      obtain ⟨hc, hcs⟩ := List.forall_mem_cons.mp h
      intro current
      rw [usesName.words, if_pos hc, ih hcs, List.reverse_cons, List.append_assoc]
      rfl

namespace TypeExpr

/-- The words of an expression are its names. -/
theorem mem_words_text_iff {e : TypeExpr} (he : e.Plain) {word : List Char} (hword : word ≠ []) :
    word ∈ words e.text.toList ↔ ∃ n ∈ e.names, n.toList = word := by
  have hempty : word ∉ words [] := by
    rw [words_of_plain (by simp), List.mem_singleton]
    exact hword
  induction e with
  | name n =>
      rw [text, words_of_plain (he n List.mem_cons_self), List.mem_singleton]
      simp [names, eq_comm]
  | subscript head argument ih =>
      obtain ⟨hhead, hargument⟩ := plain_subscript_iff.mp he
      have hnames : word ∈ words argument.text.toList ↔ ∃ n ∈ argument.names, n.toList = word :=
        ih hargument
      have htext : (subscript head argument).text.toList =
          head.toList ++ '[' :: (argument.text.toList ++ ']' :: []) := by
        simp [text]
      rw [htext, words_append_cons (by decide), words_append_cons (by decide), words_of_plain hhead,
        List.mem_append, List.mem_append, or_iff_left hempty, hnames, List.mem_singleton]
      simp [names, eq_comm]
  | pair first second ihfirst ihsecond =>
      obtain ⟨hfirst, hsecond⟩ := plain_pair_iff.mp he
      have hleft : word ∈ words first.text.toList ↔ ∃ n ∈ first.names, n.toList = word :=
        ihfirst hfirst
      have hright : word ∈ words second.text.toList ↔ ∃ n ∈ second.names, n.toList = word :=
        ihsecond hsecond
      have htext : (pair first second).text.toList =
          first.text.toList ++ ',' :: ([] ++ ' ' :: second.text.toList) := by
        simp [text]
      rw [htext, words_append_cons (by decide), words_append_cons (by decide), List.mem_append,
        List.mem_append, or_iff_right hempty, hleft, hright]
      simp only [names, List.mem_append, or_and_right, exists_or]

/-- **The search for a name in a type is exact.** -/
theorem usesName_text_iff {e : TypeExpr} (he : e.Plain) {n : String} (hn : n ≠ "") :
    usesName n e.text ↔ n ∈ e.names := by
  have hne : n.toList ≠ [] := fun h => hn (String.toList_eq_nil_iff.mp h)
  rw [usesName, List.contains_iff_mem, mem_words_text_iff he hne]
  constructor
  · rintro ⟨m, hm, heq⟩
    rwa [← String.toList_inj.mp heq]
  · exact fun hmem => ⟨n, hmem, rfl⟩

end TypeExpr

/-! ## Types of fields -/

variable {w : Writer} {enclosing : String} {s : Schema}

/-- The type of a schema as an expression. -/
def typeExpr (w : Writer) (enclosing : String) : Schema → TypeExpr
  | .object _ _ (some ref) => .name (w.typeName ref.display)
  | .object ps _ none =>
    if ps.isEmpty then .subscript "Dict" (.pair (.name "str") (.name "Any")) else .name enclosing
  | .array items _ => .subscript "List" (typeExpr w enclosing items)
  | .leaf .string _ => .name "str"
  | .leaf .number _ => .name "float"
  | .leaf .boolean _ => .name "bool"
  | .leaf .null _ | .leaf .unknown _ => .name "Any"

/-- The type of a schema is the text of its expression. -/
theorem text_typeExpr (hw : w.dialect = dialect) {type : String}
    (h : w.typeOf enclosing s = .ok type) : (typeExpr w enclosing s).text = type := by
  induction s generalizing type with
  | object ps required ref =>
      cases ref with
      | none =>
          rw [Writer.typeOf, hw] at h
          rw [← Except.ok.inj h, typeExpr]
          split <;> rfl
      | some ref =>
          obtain ⟨stem, rfl⟩ := w.exists_str_of_typeOf h ref rfl
          exact Except.ok.inj h
  | array items ref ih =>
      obtain ⟨item, hitem, rfl⟩ := Steps.exists_of_map_eq_ok h
      rw [typeExpr, TypeExpr.text, ih hitem, hw]
      rfl
  | leaf l ref =>
      rw [← Except.ok.inj h]
      cases l <;> rw [Writer.leafType, hw] <;> rfl

/-- The names that types are written with, besides those of generated types. -/
def typeWords : List String :=
  ["str", "float", "bool", "Any", "Dict", "List"]

theorem mem_names_typeExpr {n : String} (h : n ∈ (typeExpr w enclosing s).names) :
    n ∈ typeWords ∨ n = enclosing ∨
      ∃ ref, Writer.refOf s = some ref ∧ n = w.typeName ref.display := by
  induction s with
  | object ps required ref =>
      cases ref with
      | none =>
          rw [typeExpr] at h
          split at h
          · have hwords : ["Dict", "str", "Any"] ⊆ typeWords := by decide
            exact .inl (hwords h)
          · exact .inr (.inl (List.mem_singleton.mp h))
      | some ref => exact .inr (.inr ⟨ref, rfl, List.mem_singleton.mp h⟩)
  | array items ref ih =>
      rcases List.mem_cons.mp h with rfl | h
      · exact .inl (by decide)
      · exact ih h
  | leaf l ref =>
      have hwords : (typeExpr w enclosing (.leaf l ref)).names ⊆ typeWords := by
        cases l <;> simp [typeExpr, TypeExpr.names, typeWords]
      exact .inl (hwords h)

theorem plain_typeExpr (hnames : ∀ name, ∀ c ∈ (w.typeName name).toList, Naming.isWordChar c)
    (name : String) (s : Schema) : (typeExpr w (w.typeName name) s).Plain := by
  intro n hn
  rcases mem_names_typeExpr hn with hn | rfl | ⟨ref, -, rfl⟩
  · have hwords : (typeWords.all fun n => n.toList.all Naming.isWordChar) = true := by decide
    exact List.all_eq_true.mp (List.all_eq_true.mp hwords n hn)
  · exact hnames name
  · exact hnames ref.display

end DtoForge.Python
