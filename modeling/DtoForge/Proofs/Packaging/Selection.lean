import Mathlib.Data.List.TakeWhile
import DtoForge.Proofs.Packaging.FileNames
import DtoForge.Proofs.Packaging.Rendering

/-! # Selection — the files of some of the objects

Objects that are selected can be ordered on their own, or among all objects and taken out
afterwards. Either way each of them is listed once, so they have the same file names. Where a name
comes up more than once, the last object decides what the file holds, and the two orders may differ
in which object that is. -/

namespace DtoForge.Packaging

section Orders

variable {objects : List ObjectDefinition} {p : ObjectDefinition → Bool} {g : Generator}

/-- Selecting by identifiers selects the objects that have them. -/
theorem contains_selected_iff (hids : (objects.map (·.id)).Nodup) {d : ObjectDefinition}
    (hd : d ∈ objects) : ((objects.filter p).map (·.id)).contains d.id = p d := by
  rw [Bool.eq_iff_iff, List.contains_iff_mem, List.mem_map]
  constructor
  · rintro ⟨e, he, hid⟩
    obtain ⟨he, hpe⟩ := List.mem_filter.mp he
    exact eq_of_id_eq hids he hd hid ▸ hpe
  · intro hpd
    exact ⟨d, List.mem_filter.mpr ⟨hd, hpd⟩, rfl⟩

theorem filter_order_selected (hids : (objects.map (·.id)).Nodup) :
    ((orderByDependency objects).filter fun d =>
      ((objects.filter p).map (·.id)).contains d.id) = (orderByDependency objects).filter p :=
  List.filter_congr fun _ hd => contains_selected_iff hids ((mem_orderByDependency hids).mp hd)

/-- Selected objects are put in the order of all objects when no path between them is broken. -/
theorem order_selected_eq {ids : List String} {completed : List ObjectDefinition}
    (hids : (objects.map (·.id)).Nodup) (h : Explored [] ids objects completed)
    (hp : Unbroken objects fun d => ((objects.filter p).map (·.id)).contains d.id) :
    orderByDependency (objects.filter p) = (orderByDependency objects).filter p := by
  have hselected : (objects.filter fun d => ((objects.filter p).map (·.id)).contains d.id) =
      objects.filter p :=
    List.filter_congr fun _ hd => contains_selected_iff hids hd
  have horder := orderByDependency_filter hids h hp
  rw [hselected, ← orderByDependency_of_explored hids h, filter_order_selected hids] at horder
  exact horder

theorem order_selected_perm (hids : (objects.map (·.id)).Nodup) :
    (orderByDependency (objects.filter p)).Perm ((orderByDependency objects).filter p) := by
  exact (orderByDependency_perm_of_nodup (filter_ids_nodup hids p)).trans
    ((orderByDependency_perm_of_nodup hids).filter p).symm

/-! ## The last of each name -/

/-- Two orders of the same objects have the same last file of a name, if they are one order or only
one object has the name. -/
theorem get?_reverse_eq_of_perm {ds es : List ObjectDefinition}
    {pairs pairs' : List (String × String)}
    (h : ds.mapM (fileOf g) = .ok pairs) (h' : es.mapM (fileOf g) = .ok pairs')
    (hperm : ds.Perm es) {name : String}
    (hone : ds = es ∨ ∀ a ∈ ds, ∀ b ∈ ds, fileName g a = name → fileName g b = name → a = b) :
    Entries.get? pairs.reverse name = Entries.get? pairs'.reverse name := by
  rcases hone with rfl | hone
  · rw [Except.ok.inj (h.symm.trans h')]
  · have hfound : ∀ {fs : List ObjectDefinition} {files : List (String × String)} {text : String},
        fs.mapM (fileOf g) = .ok files → fs ⊆ ds → Entries.get? files.reverse name = some text →
          ∃ d ∈ ds, fileOf g d = .ok (name, text) := by
      intro fs files text hfiles hsub htext
      have hmem := List.mem_reverse.mp (Entries.mem_of_get? htext)
      obtain ⟨d, hd, hfile⟩ := (Steps.mem_of_mapM_eq_ok hfiles).2 _ hmem
      exact ⟨d, hsub hd, hfile⟩
    have hkeys : name ∈ Entries.keys pairs.reverse ↔ name ∈ Entries.keys pairs'.reverse := by
      simp only [Entries.keys, List.map_reverse, List.mem_reverse]
      have hnames := keys_of_mapM_fileOf h
      have hnames' := keys_of_mapM_fileOf h'
      rw [Entries.keys] at hnames hnames'
      rw [hnames, hnames', (hperm.map _).mem_iff]
    cases htext : Entries.get? pairs.reverse name with
    | none =>
        rw [Entries.get?_eq_none_iff, hkeys, ← Entries.get?_eq_none_iff] at htext
        exact htext.symm
    | some text =>
        cases htext' : Entries.get? pairs'.reverse name with
        | none =>
            rw [Entries.get?_eq_none_iff, ← hkeys, ← Entries.get?_eq_none_iff, htext] at htext'
            cases htext'
        | some text' =>
            obtain ⟨a, ha, hfile⟩ := hfound h (List.Subset.refl _) htext
            obtain ⟨b, hb, hfile'⟩ := hfound h' hperm.symm.subset htext'
            have hsame := hone a ha b hb (fileOf_eq_ok hfile).1.symm (fileOf_eq_ok hfile').1.symm
            rw [hsame, hfile'] at hfile
            cases hfile
            rfl

end Orders

/-! ## Archives -/

theorem archiveOf_of_isName {files : Entries String String} (h : ∀ f ∈ files, Files.IsName f.1) :
    archiveOf files = .ok (files.map fun f => { name := f.1, text := f.2 }) := by
  induction files with
  | nil => rfl
  | cons f files ih =>
      obtain ⟨hf, hfiles⟩ := List.forall_mem_cons.mp h
      have hname : entryName f.1 = f.1 := by
        have hall : f.1.toList.takeWhile (· != '\x00') = f.1.toList := by
          rw [List.takeWhile_eq_self_iff]
          intro c hc
          simpa using ne_of_mem_of_not_mem hc hf.no_null
        rw [entryName, hall, String.ofList_toList]
      have hentry : entryOf f = .ok { name := f.1, text := f.2 } := by
        rw [entryOf, hname]
        simp [hf.ne_empty]
      rw [archiveOf, List.mapM_cons, hentry]
      rw [archiveOf] at ih
      rw [ih hfiles]
      rfl

section Archive

variable {objects : List ObjectDefinition} {p : ObjectDefinition → Bool} {g : Generator}

/-- Selected objects that have code can be archived. The entries have the names of the files that
are generated of the objects one by one, and each holds the last of these, if the orders agree or
only one selected object has the name. -/
theorem exists_archive (hids : (objects.map (·.id)).Nodup)
    (hcode : ∀ d ∈ objects.filter p, ∃ code, g.generate d.schema (.str d.name) = .ok code)
    (hnames : ∀ d ∈ objects.filter p, Files.IsName (fileName g d)) :
    ∃ pairs rendering archive,
      (orderByDependency (objects.filter p)).mapM (fileOf g) = .ok pairs ∧
      render g objects ((objects.filter p).map (·.id)) = (.ok (), rendering) ∧
      archiveOf rendering.files = .ok archive ∧
      (∀ name, name ∈ archive.map (·.name) ↔ name ∈ Entries.keys pairs) ∧
      ∀ e ∈ archive,
        (orderByDependency (objects.filter p) = (orderByDependency objects).filter p ∨
          ∀ a ∈ objects.filter p, ∀ b ∈ objects.filter p,
            fileName g a = e.name → fileName g b = e.name → a = b) →
        Entries.get? pairs.reverse e.name = some e.text := by
  have hperm := order_selected_perm (p := p) hids
  have hmem : ∀ d ∈ orderByDependency (objects.filter p), d ∈ objects.filter p :=
    fun d hd => (mem_orderByDependency (filter_ids_nodup hids p)).mp hd
  have hfile : ∀ d ∈ orderByDependency (objects.filter p), ∃ file, fileOf g d = .ok file := by
    intro d hd
    obtain ⟨code, hcode⟩ := hcode d (hmem d hd)
    exact ⟨_, by rw [fileOf, hcode]; rfl⟩
  obtain ⟨pairs, hpairs⟩ := Steps.exists_mapM_eq_ok hfile
  obtain ⟨pairs', hpairs'⟩ := Steps.exists_mapM_eq_ok fun d hd => hfile d (hperm.mem_iff.mpr hd)
  have hrendered := hpairs'
  rw [← filter_order_selected hids] at hrendered
  obtain ⟨hok, hfiles⟩ := render_of_mapM hrendered
  have hkeys : ∀ name, name ∈ (Entries.lastOfEach pairs').keys ↔ name ∈ Entries.keys pairs := by
    intro name
    rw [Entries.keys_lastOfEach, List.mem_dedup, keys_of_mapM_fileOf hpairs,
      keys_of_mapM_fileOf hpairs', (hperm.map _).mem_iff]
  have hisName : ∀ f ∈ Entries.lastOfEach pairs', Files.IsName f.1 := by
    intro f hf
    have hkey := (hkeys f.1).mp (List.mem_map_of_mem hf)
    rw [keys_of_mapM_fileOf hpairs] at hkey
    obtain ⟨d, hd, hname⟩ := List.mem_map.mp hkey
    exact hname ▸ hnames d (hmem d hd)
  refine ⟨pairs, _, _, hpairs, Prod.ext hok rfl,
    by rw [hfiles, archiveOf_of_isName hisName], ?_, ?_⟩
  · intro name
    rw [← hkeys name, List.map_map]
    rfl
  · intro e he hone
    obtain ⟨f, hf, rfl⟩ := List.mem_map.mp he
    have hlast : Entries.get? pairs'.reverse f.1 = some f.2 := by
      have hnodup : (Entries.lastOfEach pairs').keys.Nodup :=
        Entries.keys_lastOfEach pairs' ▸ List.nodup_dedup _
      rw [← Entries.get?_lastOfEach]
      exact (Entries.mem_iff_get? hnodup).mp hf
    rw [← hlast]
    apply get?_reverse_eq_of_perm hpairs hpairs' hperm
    exact hone.imp_right fun h a ha b hb => h a (hmem a ha) b (hmem b hb)

end Archive

end DtoForge.Packaging
