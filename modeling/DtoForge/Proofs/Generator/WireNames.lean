import DtoForge.Proofs.Generator.Layout
import DtoForge.Proofs.Generator.References
import DtoForge.Proofs.Text.Literal

/-! # Wire names — the names of documents in annotated code

Java and C# tell the name of a property in documents by a line with a literal of it. A literal marks
backslashes and quotes alone, so a name that holds line feeds goes over several lines of code, and
the final form treats them like any others: it strips white space in front of a line feed and drops
blank lines. So a name gets into the code as it is exactly if it is settled. -/

namespace DtoForge

open Source Text

variable {limit : Nat}

/-! ## Settled literals -/

namespace Source

variable {marked cs : List Char}

/-- Marks make no white space. -/
theorem settled_escapeMarked_iff (hbackslash : '\\' ∈ marked)
    (hmarked : ∀ c ∈ marked, Unicode.isBlank c = false) :
    Settled limit (escapeMarked marked cs) ↔ Settled limit cs := by
  have hfeed : '\n' ∉ marked := fun hmem => ne_lineFeed (hmarked '\n' hmem) rfl
  have hpair : ∀ c, Unicode.isBlank c = true →
      ([c, '\n'] <:+: escapeMarked marked cs ↔ [c, '\n'] <:+: cs) := by
    intro c hc
    apply infix_escapeMarked_iff hbackslash
    have hnot : c ∉ marked := fun hmem => by
      rw [hmarked c hmem] at hc
      cases hc
    simp [hnot, hfeed]
  have hfeeds : List.replicate (limit + 2) '\n' <:+: escapeMarked marked cs ↔
      List.replicate (limit + 2) '\n' <:+: cs := by
    apply infix_escapeMarked_iff hbackslash
    intro c hc
    rw [List.eq_of_mem_replicate hc]
    exact hfeed
  constructor
  · intro h
    exact ⟨fun c hc hblank => h.trimmed c ((hpair c hblank).mpr hc) hblank,
      fun hmany => h.spaced (hfeeds.mpr hmany)⟩
  · intro h
    exact ⟨fun c hc hblank => h.trimmed c ((hpair c hblank).mp hc) hblank,
      fun hmany => h.spaced (hfeeds.mp hmany)⟩

/-- A literal, and what stands around it on its line, are as settled as the text. -/
theorem settled_around_doubleQuoted_iff {front behind : List Char} (hfront : '\n' ∉ front)
    (hbehind : '\n' ∉ behind) (s : String) :
    Settled limit (front ++ (doubleQuoted s).toList ++ behind) ↔ Settled limit s.toList := by
  have hquote : Unicode.isBlank '"' = false := by decide +kernel
  have hbackslash : Unicode.isBlank '\\' = false := by decide +kernel
  have hmarked : ∀ c ∈ ['\\', '"'], Unicode.isBlank c = false := by
    simp [hbackslash, hquote]
  have hsplit : front ++ (doubleQuoted s).toList ++ behind =
      front ++ '"' :: (escapeMarked ['\\', '"'] s.toList ++ '"' :: behind) := by
    simp [doubleQuoted, literal]
  rw [hsplit, settled_append_cons_iff hquote, settled_append_cons_iff hquote,
    settled_escapeMarked_iff List.mem_cons_self hmarked]
  exact ⟨fun h => h.2.1, fun h => ⟨settled_of_not_mem hfront, h, settled_of_not_mem hbehind⟩⟩

end Source

/-! ## Annotations -/

namespace CSharp

theorem mem_spaced {groups : List Lines} {group : Lines} {line : String} (hgroup : group ∈ groups)
    (hline : line ∈ group) : line ∈ spaced groups := by
  induction groups using spaced.induct with
  | case1 => cases hgroup
  | case2 g =>
      rw [List.mem_singleton.mp hgroup] at hline
      exact hline
  | case3 g gs hgs ih =>
      rw [spaced]
      · rcases List.mem_cons.mp hgroup with rfl | hgroup
        · exact List.mem_append_left _ hline
        · exact List.mem_append_right _ (List.mem_cons_of_mem _ (ih hgroup))
      · exact hgs

end CSharp

namespace Generator

variable {g : Generator} {wireName line : String}

/-- The line that holds the name of a property in documents, in the languages that annotate their
properties. -/
def nameLine? (g : Generator) (wireName : String) : Option String :=
  match g.target with
  | .java => some ("    @JsonProperty(" ++ doubleQuoted wireName ++ ")")
  | .csharp =>
    some ("    [" ++ CSharp.nameAttribute g.writer ++ "(" ++ doubleQuoted wireName ++ ")]")
  | _ => none

/-- The literal stands in the line between two parts without line feeds, and the line does not end in
white space. -/
theorem exists_around_of_nameLine? (h : g.nameLine? wireName = some line) :
    ∃ front behind c, line.toList = front ++ (doubleQuoted wireName).toList ++ (behind ++ [c]) ∧
      '\n' ∉ front ∧ front ≠ [] ∧ '\n' ∉ behind ++ [c] ∧ Unicode.isBlank c = false := by
  rw [nameLine?] at h
  cases htarget : g.target with
  | java =>
      rw [htarget] at h
      obtain rfl := Option.some.inj h
      refine ⟨"    @JsonProperty(".toList, [], ')', ?_, ?_⟩
      · rw [String.toList_append, String.toList_append]
        rfl
      · decide +kernel
  | csharp =>
      rw [htarget] at h
      obtain rfl := Option.some.inj h
      refine ⟨("    [" ++ CSharp.nameAttribute g.writer ++ "(").toList, [')'], ']', ?_, ?_⟩
      · rw [String.toList_append, String.toList_append]
        rfl
      · rw [CSharp.nameAttribute]
        cases g.writer.on .systemTextJson <;> decide +kernel
  | _ =>
      rw [htarget] at h
      cases h

/-- The line stands in the code when annotations are on. -/
theorem nameLine?_mem_codeOf {t : TypeSource} (hon : g.options.enabled .annotations = true)
    {f : Field} (hf : f ∈ t.fields) (h : g.nameLine? f.wireName = some line) :
    line ∈ g.codeOf t := by
  have hwriter : g.writer.on .annotations = true := hon
  rw [nameLine?] at h
  rw [codeOf]
  cases htarget : g.target with
  | java =>
      rw [htarget] at h
      obtain rfl := Option.some.inj h
      have hfield : "    @JsonProperty(" ++ doubleQuoted f.wireName ++ ")" ∈
          Java.fieldLines g.writer f := by
        simp [Java.fieldLines, hwriter, onlyIf]
      have hfields := List.mem_flatMap.mpr ⟨f, hf, hfield⟩
      dsimp only
      rw [Java.code]
      simp only [List.mem_append]
      tauto
  | csharp =>
      rw [htarget] at h
      obtain rfl := Option.some.inj h
      have hfield : "    [" ++ CSharp.nameAttribute g.writer ++ "(" ++ doubleQuoted f.wireName ++
          ")]" ∈ CSharp.propertyLines g.writer t.className f := by
        simp [CSharp.propertyLines, hwriter, onlyIf]
      have hfields := CSharp.mem_spaced (List.mem_map_of_mem hf) hfield
      dsimp only
      rw [CSharp.code]
      simp only [List.mem_append]
      tauto
  | _ =>
      rw [htarget] at h
      cases h

theorem wireNames_of_source {schema : Schema} {name : RawText} {t : TypeSource}
    (h : g.source schema name = .ok t) :
    t.fields.map (·.wireName) = schema.properties.map (·.1.legible) := by
  obtain ⟨fields, references, hfields, -, rfl⟩ := source_eq_ok_iff.mp h
  cases schema with
  | object ps required ref => exact g.writer.wireNames_of_fieldsFrom hfields
  | array items ref => cases hfields
  | leaf l ref => cases hfields

/-! ## Main result -/

/-- The line of a name is kept exactly if the name is settled, and so is the literal in it. -/
theorem nameLine?_kept_iff {lines : Lines} (h : g.nameLine? wireName = some line)
    (hmem : line ∈ lines) :
    (line.toList <:+: (format limit (text lines)).toList ↔ Settled limit wireName.toList) ∧
      ((doubleQuoted wireName).toList <:+: (format limit (text lines)).toList ↔
        Settled limit wireName.toList) := by
  obtain ⟨front, behind, c, hline, hfront, hne, hbehind, hc⟩ := exists_around_of_nameLine? h
  have hliteral : (doubleQuoted wireName).toList <:+: line.toList :=
    ⟨front, behind ++ [c], hline.symm⟩
  have hsettled : (doubleQuoted wireName).toList <:+: (format limit (text lines)).toList →
      Settled limit wireName.toList := by
    intro hkept
    have hpart := (settled_format limit (text lines)).of_isInfix hkept
    rw [← List.nil_append (doubleQuoted wireName).toList, ← List.append_nil ([] ++ _)] at hpart
    exact (settled_around_doubleQuoted_iff List.not_mem_nil List.not_mem_nil wireName).mp hpart
  have hkept : Settled limit wireName.toList →
      line.toList <:+: (format limit (text lines)).toList := by
    intro hname
    have hsettled : Settled limit line.toList := by
      rw [hline]
      exact (settled_around_doubleQuoted_iff hfront hbehind wireName).mpr hname
    obtain ⟨d, ds, rfl⟩ := List.exists_cons_of_ne_nil hne
    refine infix_format_text hmem hsettled ?_ (c := c) ?_ hc
    · rw [hline, List.cons_append, List.cons_append, List.head?_cons]
      rintro ⟨⟩
      exact hfront List.mem_cons_self
    · rw [hline, ← List.append_assoc, List.getLast?_concat]
  exact ⟨⟨fun h => hsettled (hliteral.trans h), hkept⟩, hsettled, fun h => hliteral.trans (hkept h)⟩

/-- **Which names of documents get into annotated code.** Whenever annotations are on and code in Java
or C# is generated, the line of a property with the literal of its name stands in the code as it is,
and the literal stands anywhere in it, exactly if the name has no white space in front of a line feed
and no three line feeds in a row. For objects whose references are texts, code is generated. -/
theorem generate_keeps_name_iff {g : Generator} (htarget : g.target = .java ∨ g.target = .csharp)
    (hon : g.options.enabled .annotations = true) (schema : Schema) :
    (schema.isObject = true →
      (∀ p ∈ schema.properties, ∀ ref, Writer.refOf p.2 = some ref → ∃ stem, ref = .str stem) →
      ∀ name, ∃ code, g.generate schema (.str name) = .ok code) ∧
    ∀ name code, g.generate schema name = .ok code →
      ∀ p ∈ schema.properties, ∃ line, g.nameLine? p.1.legible = some line ∧
        (line.toList <:+: code.toList ↔ Settled 1 p.1.legible.toList) ∧
        ((doubleQuoted p.1.legible).toList <:+: code.toList ↔ Settled 1 p.1.legible.toList) := by
  have hblank : g.writer.dialect.blankLines = 1 := by
    rcases htarget with htarget | htarget <;> rw [writer, htarget] <;> rfl
  have hline : ∀ wireName, ∃ line, g.nameLine? wireName = some line := by
    intro wireName
    rcases htarget with htarget | htarget <;> exact ⟨_, by rw [nameLine?, htarget]⟩
  constructor
  · intro hobject hrefs name
    obtain ⟨t, ht⟩ := g.exists_source_of_refOf hobject hrefs name
    refine ⟨_, generate_of_source (fun v hv => ?_) hobject ht⟩
    rcases htarget with htarget | htarget <;> (rw [packageClause?, htarget] at hv; cases hv)
  · intro name code hcode p hp
    obtain ⟨stem, t, -, ht, rfl⟩ := exists_source_of_generate_eq_ok hcode
    obtain ⟨f, hf, hname⟩ : ∃ f ∈ t.fields, f.wireName = p.1.legible :=
      List.mem_map.mp (wireNames_of_source ht ▸ List.mem_map_of_mem hp)
    obtain ⟨line, hline⟩ := hline p.1.legible
    refine ⟨line, hline, ?_⟩
    rw [written, Writer.format, hblank]
    exact nameLine?_kept_iff hline (nameLine?_mem_codeOf hon hf (hname ▸ hline))

/-- Of two names that differ by one blank, Java code keeps the one without. -/
theorem generate_keeps_name_iff_blank :
    let g : Generator := ⟨.java, {}⟩
    let schema : Schema :=
      .object [("due\n\ndate", .leaf .string none), ("due \n\ndate", .leaf .string none)] [] none
    ∃ code, g.generate schema (.str "Invoice") = .ok code ∧
      (doubleQuoted "due\n\ndate").toList <:+: code.toList ∧
      ¬ (doubleQuoted "due \n\ndate").toList <:+: code.toList := by
  intro g schema
  have hrefs : ∀ p ∈ schema.properties, ∀ ref, Writer.refOf p.2 = some ref →
      ∃ stem, ref = .str stem := by
    simp [schema, Schema.properties, Writer.refOf, Writer.itemOf]
  obtain ⟨hgenerates, hkeeps⟩ := generate_keeps_name_iff (g := g) (.inl rfl) (by decide) schema
  obtain ⟨code, hcode⟩ := hgenerates rfl hrefs "Invoice"
  refine ⟨code, hcode, ?_, ?_⟩
  · obtain ⟨-, -, -, hkept⟩ :=
      hkeeps _ _ hcode ("due\n\ndate", .leaf .string none) List.mem_cons_self
    exact hkept.mpr (by decide +kernel)
  · obtain ⟨-, -, -, hkept⟩ := hkeeps _ _ hcode ("due \n\ndate", .leaf .string none)
      (List.mem_cons_of_mem _ List.mem_cons_self)
    exact fun h => absurd (hkept.mp h) (by decide +kernel)

/-- The blank in front of a line feed is lost from the literal of a name. -/
theorem exists_name_not_kept :
    let g : Generator := ⟨.java, {}⟩
    let schema : Schema := .object [("a \nb", .leaf .string none)] [] none
    g.options.enabled .annotations = true ∧
      ∃ code, g.generate schema (.str "Root") = .ok code ∧
        ¬ (doubleQuoted "a \nb").toList <:+: code.toList := by
  intro g schema
  obtain ⟨code, hcode⟩ : ∃ code, g.generate schema (.str "Root") = .ok code := ⟨_, rfl⟩
  refine ⟨by decide, code, hcode, ?_⟩
  obtain ⟨stem, t, -, -, rfl⟩ := exists_source_of_generate_eq_ok hcode
  intro hkept
  have hsettled := (settled_format 1 (text (g.codeOf t))).of_isInfix hkept
  exact absurd hsettled (by decide +kernel)

end Generator

end DtoForge
