import Mathlib.Data.List.Nodup
import DtoForge.Proofs.Schema.CanonicalText

/-! # Identity — one canonical text for one structure

`alike_of_text_eq` reads the structure off a canonical text. The other half is that nothing but the
structure gets into the text: entries and required names are written in order, and what stands in
order under names that are all different has one order only (`arrange_eq_of_perm`,
`sorted_eq_of_perm`). Together, `canonicalText_eq_iff_alike`: the text that is digested is the same
exactly for schemas that are alike, unless a name has two halves side by side that are written like
a character. -/

namespace DtoForge

/-! ## Order of entries and of texts -/

namespace Json

/-- Entries under different keys are written in the same order, however they stand. -/
theorem arrange_eq_of_perm {α : Type} {layout : Layout} (hsorts : layout.sortKeys = true)
    {es fs : List (RawText × α)} (hkeys : (es.map (·.1)).Nodup) (h : es.Perm fs) :
    layout.arrange es = layout.arrange fs := by
  have hpairwise : ∀ l : List (RawText × α), (layout.arrange l).Pairwise fun a b => a.1 ≤ b.1 := by
    intro l
    rw [Layout.arrange, if_pos hsorts]
    have htrans : ∀ a b c : RawText × α, decide (a.1 ≤ b.1) = true → decide (b.1 ≤ c.1) = true →
        decide (a.1 ≤ c.1) = true := by
      intro a b c hab hbc
      rw [decide_eq_true_eq] at hab hbc ⊢
      exact RawText.le_trans hab hbc
    have htotal : ∀ a b : RawText × α, (decide (a.1 ≤ b.1) || decide (b.1 ≤ a.1)) = true := by
      intro a b
      simpa using RawText.le_total a.1 b.1
    exact (List.pairwise_mergeSort htrans htotal l).imp fun hab => of_decide_eq_true hab
  have hes := arrange_perm layout es
  have hfs := arrange_perm layout fs
  refine List.Perm.eq_of_pairwise ?_ (hpairwise es) (hpairwise fs) (hes.trans (h.trans hfs.symm))
  -- two entries that are each before the other have one key, so they are one entry
  intro a b ha hb hab hba
  exact List.inj_on_of_nodup_map hkeys (hes.subset ha) (h.symm.subset (hfs.subset hb))
    (RawText.le_antisymm hab hba)

/-- Whether all elements are texts. -/
def AllTexts (vs : List Json) : Prop :=
  ∀ v ∈ vs, ∃ name, v = .str name

theorem before_str (s t : RawText) : before (.str s) (.str t) = decide (s < t) := rfl

/-- A text put in its place among texts in order leaves them in order. -/
theorem insertSorted_pairwise {name : RawText} {vs : List Json} (htexts : AllTexts vs)
    (h : vs.Pairwise fun v w => before w v = false) :
    (insertSorted (.str name) vs).Pairwise fun v w => before w v = false := by
  induction vs with
  | nil => exact List.pairwise_singleton _ _
  | cons x xs ih =>
      obtain ⟨⟨first, rfl⟩, hxs⟩ := List.forall_mem_cons.mp htexts
      obtain ⟨hfirst, hrest⟩ := List.pairwise_cons.mp h
      rw [insertSorted]
      split
      · next hbefore =>
          rw [before_str, decide_eq_true_eq] at hbefore
          apply List.Pairwise.cons _ h
          intro w hw
          obtain ⟨other, rfl⟩ := htexts w hw
          have hother : ¬ other < first := by
            rcases List.mem_cons.mp hw with heq | hw
            · rw [Json.str.inj heq]
              exact RawText.lt_irrefl first
            · simpa [before_str] using hfirst _ hw
          rw [before_str, decide_eq_false_iff_not]
          exact fun hlt => hother (RawText.lt_trans hlt hbefore)
      · next hbefore =>
          apply List.Pairwise.cons _ (ih hxs hrest)
          intro w hw
          rcases List.mem_cons.mp ((Schema.insertSorted_perm _ _).subset hw) with rfl | hw
          · simpa using hbefore
          · exact hfirst w hw

theorem sorted_pairwise {vs : List Json} (htexts : AllTexts vs) :
    (sorted vs).Pairwise fun v w => before w v = false := by
  induction vs with
  | nil => exact List.Pairwise.nil
  | cons v vs ih =>
      obtain ⟨⟨name, rfl⟩, hvs⟩ := List.forall_mem_cons.mp htexts
      apply insertSorted_pairwise _ (ih hvs)
      exact fun w hw => hvs w ((Schema.sorted_perm vs).subset hw)

/-- Texts have one order. -/
theorem sorted_eq_of_perm {vs ws : List Json} (htexts : AllTexts vs) (h : vs.Perm ws) :
    sorted vs = sorted ws := by
  have hvs := Schema.sorted_perm vs
  have hws := Schema.sorted_perm ws
  have htexts' : AllTexts ws := fun w hw => htexts w (h.symm.subset hw)
  refine List.Perm.eq_of_pairwise ?_ (sorted_pairwise htexts) (sorted_pairwise htexts')
    (hvs.trans (h.trans hws.symm))
  intro v w hv hw hvw hwv
  obtain ⟨s, rfl⟩ := htexts v (hvs.subset hv)
  obtain ⟨t, rfl⟩ := htexts' w (hws.subset hw)
  rw [before_str, decide_eq_false_iff_not, RawText.not_lt] at hvw hwv
  rw [RawText.le_antisymm hvw hwv]

end Json

namespace Schema

open Json (Layout)

/-! ## The text of a structure -/

/-- Whether every object names its properties differently, and requires no name twice. -/
def Distinct (s : Schema) : Prop :=
  s.Everywhere fun s => (s.properties.map (·.1)).Nodup ∧ s.required.Nodup

section Alike

variable {ps qs : List (RawText × Schema)} {required required' : List Json}

/-- Properties of the same names whose schemas have the same texts are written alike. -/
theorem entryTexts_eq (hps : (ps.map (·.1)).Nodup) (hqs : (qs.map (·.1)).Nodup)
    (hfound : ∀ p ∈ ps, ∃ t, (p.1, t) ∈ qs ∧ p.2.canonicalText = t.canonicalText)
    (hnames : ∀ q ∈ qs, ∃ p ∈ ps, p.1 = q.1) : entryTexts ps = entryTexts qs := by
  -- the keys of the written entries are the names
  have hkeys : ∀ l : List (RawText × Schema),
      (l.map fun p => (p.1, entryText p)).map (·.1) = l.map (·.1) := by
    intro l
    rw [List.map_map]
    rfl
  have hsame : ∀ {p : RawText × Schema} {t : Schema}, p.2.canonicalText = t.canonicalText →
      (p.1, entryText p) = (p.1, entryText (p.1, t)) := by
    intro p t h
    rw [entryText, entryText, h]
  have hperm : (ps.map fun p => (p.1, entryText p)).Perm (qs.map fun q => (q.1, entryText q)) := by
    rw [List.perm_ext_iff_of_nodup (List.Nodup.of_map _ ((hkeys ps).symm ▸ hps))
      (List.Nodup.of_map _ ((hkeys qs).symm ▸ hqs))]
    intro e
    simp only [List.mem_map]
    constructor
    · rintro ⟨p, hp, rfl⟩
      obtain ⟨t, ht, htext⟩ := hfound p hp
      exact ⟨(p.1, t), ht, (hsame htext).symm⟩
    · rintro ⟨q, hq, rfl⟩
      obtain ⟨p, hp, hname⟩ := hnames q hq
      obtain ⟨t, ht, htext⟩ := hfound p hp
      -- the property found for `p` has the name of `q`, so it is `q`
      obtain rfl : (p.1, t) = q := List.inj_on_of_nodup_map hqs ht hq hname
      exact ⟨p, hp, hsame htext⟩
  rw [entryTexts, entryTexts, Json.arrange_eq_of_perm rfl ((hkeys ps).symm ▸ hps) hperm]

theorem requiredTexts_eq (htexts : Json.AllTexts required) (h : required.Nodup)
    (h' : required'.Nodup) (hsame : ∀ v, v ∈ required ↔ v ∈ required') :
    requiredTexts required = requiredTexts required' := by
  rw [requiredTexts, requiredTexts,
    Json.sorted_eq_of_perm htexts ((List.perm_ext_iff_of_nodup h h').mpr hsame)]

end Alike

/-- Schemas that are alike have one canonical text. -/
theorem text_eq_of_alike (s : Schema) (hnamed : Named s) (hs : Distinct s) :
    ∀ t, Distinct t → Alike s t → s.text = t.text := by
  induction s with
  | object ps required ref ih =>
      intro t ht halike
      cases t with
      | object qs required' ref' =>
          obtain ⟨htexts, hnamed⟩ := everywhere_object_iff.mp hnamed
          obtain ⟨⟨hnames, hrequired⟩, hps⟩ := everywhere_object_iff.mp hs
          obtain ⟨⟨hnames', hrequired'⟩, hqs⟩ := everywhere_object_iff.mp ht
          obtain ⟨hfound, hback, hsame⟩ := alike_object_iff.mp halike
          have hentries : entryTexts ps = entryTexts qs := by
            apply entryTexts_eq hnames hnames' _ hback
            intro p hp
            obtain ⟨t, ht, hpt⟩ := hfound p hp
            have htext := ih p hp (hnamed p hp) (hps p hp) t (hqs _ ht) hpt
            exact ⟨t, ht, String.toList_inj.mp htext⟩
          have hnames : requiredTexts required = requiredTexts required' :=
            requiredTexts_eq htexts hrequired hrequired' hsame
          rw [text_object, text_object, hentries, hnames]
      | array items' ref' => simp [Alike] at halike
      | leaf l' ref' => simp [Alike] at halike
  | array items ref ih =>
      intro t ht halike
      cases t with
      | object qs required' ref' => simp [Alike] at halike
      | array items' ref' =>
          rw [Alike] at halike
          rw [text_array, text_array, ih hnamed.2 hs.2 items' ht.2 halike]
      | leaf l' ref' => simp [Alike] at halike
  | leaf l ref =>
      intro t _ halike
      cases t with
      | object qs required' ref' => simp [Alike] at halike
      | array items' ref' => simp [Alike] at halike
      | leaf l' ref' =>
          rw [Alike] at halike
          rw [text_leaf, text_leaf, halike]

/-! ## Main result -/

/-- **The canonical text decides the structure.** Schemas that are alike have one text: neither
references nor the order of properties and of required names get into it. Everything else can be
read off it, up to names in which two halves stand side by side: schemas of one text are alike as
their names are read back. So without such names, the texts of two schemas are the same exactly if
the schemas are alike. -/
theorem canonicalText_eq_iff_alike {s t : Schema} (hs : s.Named) (hs' : s.Distinct) (ht : t.Named)
    (ht' : t.Distinct) :
    (Alike s t → s.canonicalText = t.canonicalText) ∧
      (s.canonicalText = t.canonicalText → Alike s.reread t.reread) ∧
      (s.Unsplit → t.Unsplit → (s.canonicalText = t.canonicalText ↔ Alike s t)) := by
  rw [← String.toList_inj]
  have hforth := text_eq_of_alike s hs hs' t ht'
  exact ⟨hforth, alike_reread_of_text_eq s hs t ht,
    fun hunsplit hunsplit' => ⟨alike_of_text_eq hs hunsplit ht hunsplit', hforth⟩⟩

/-- Two properties in either order, with and without a reference; one name has to be escaped. -/
theorem canonicalText_eq_iff_alike_points :
    let point (ref : Option Json) : Schema := .object [("x", .leaf .number none)] [.str "x"] ref
    let s : Schema := .object [("a\"b", .array (point none) none), ("é", .leaf .null none)]
      [.str "a\"b", .str "é"] none
    let t : Schema := .object
      [("é", .leaf .null none), ("a\"b", .array (point (some (.str "P"))) none)]
      [.str "é", .str "a\"b"] (some (.str "Q"))
    (s.Named ∧ s.Distinct ∧ s.Unsplit ∧ t.Named ∧ t.Distinct ∧ t.Unsplit) ∧ Alike s t ∧
      s.canonicalText = t.canonicalText ∧ (point none).canonicalText ≠ s.canonicalText := by
  intro point s t
  have hpoint : (point none).Named ∧ (point none).Distinct ∧ (point none).Unsplit := by
    simp [point, Named, Distinct, Unsplit, Everywhere, EverywhereIn, properties, required,
      RawText.unsplit_whole]
  have hs : s.Named ∧ s.Distinct ∧ s.Unsplit := by
    simp [s, point, Named, Distinct, Unsplit, Everywhere, EverywhereIn, properties, required,
      RawText.unsplit_whole]
  have ht : t.Named ∧ t.Distinct ∧ t.Unsplit := by
    simp [t, point, Named, Distinct, Unsplit, Everywhere, EverywhereIn, properties, required,
      RawText.unsplit_whole]
  have halike : Alike s t := by
    simp [s, t, point, Alike, AllFound, or_comm]
  have hother : ¬ Alike (point none) s := by
    simp [s, point, Alike, AllFound]
  obtain ⟨hforth, -, -⟩ := canonicalText_eq_iff_alike hs.1 hs.2.1 ht.1 ht.2.1
  obtain ⟨-, -, hexact⟩ := canonicalText_eq_iff_alike hpoint.1 hpoint.2.1 hs.1 hs.2.1
  exact ⟨⟨hs.1, hs.2.1, hs.2.2, ht.1, ht.2.1, ht.2.2⟩, halike, hforth halike,
    fun h => hother ((hexact hpoint.2.2 hs.2.2).mp h)⟩

/-- The two halves of the pair of a character. -/
def halves : RawText :=
  .ofPoints [.half (.highOf '😀'), .half (.lowOf '😀')]

/-- The character and its halves are written alike. -/
theorem writeText_halves : Json.writeText true halves = Json.writeText true "😀" := by
  decide

/-- Two schemas of one text: the name of the one is a character, that of the other its halves. -/
theorem exists_canonicalText_eq_not_alike :
    ∃ s t : Schema, (s.Named ∧ s.Distinct) ∧ (t.Named ∧ t.Distinct) ∧
      s.canonicalText = t.canonicalText ∧ ¬ Alike s t := by
  let point (name : RawText) : Schema := .object [(name, .leaf .number none)] [.str name] none
  have hnames : RawText.whole "😀" ≠ halves := by decide
  have hpoint : ∀ name, (point name).Named ∧ (point name).Distinct := by
    simp [point, Named, Distinct, Everywhere, EverywhereIn, properties, required]
  have htext : (point "😀").text = (point halves).text := by
    have hentry : ∀ name leaf, entryTexts [(name, leaf)] = [(entryText (name, leaf)).toList] :=
      fun name leaf => entryTexts_of_sorted (List.pairwise_singleton _ _)
    have hrequired : ∀ name : RawText,
        requiredTexts [.str name] = [(Json.writeText true name).toList] := fun _ => rfl
    rw [text_object, text_object, hentry, hentry, hrequired, hrequired, entryText, entryText,
      writeText_halves]
  refine ⟨point "😀", point halves, hpoint _, hpoint _, String.toList_inj.mp htext, ?_⟩
  simp [point, Alike, AllFound, hnames]

end Schema

end DtoForge
