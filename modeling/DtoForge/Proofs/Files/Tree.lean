import DtoForge.Files.Tree
import DtoForge.Proofs.Files.Path
import DtoForge.Proofs.Json.Entries
import DtoForge.Proofs.Steps
import DtoForge.Proofs.Text.Utf8

/-! # File trees — what writing below a directory changes

A file that is written replaces no directory, so every path leads where it led before. After several
files were written below a directory, each name holds what was written to it last. What is read as a
text is refused for its bytes exactly if they are the code of none. -/

namespace DtoForge.Files

/-- A text that names one place right below a directory. -/
structure IsName (name : String) : Prop where
  ne_empty : name ≠ ""
  ne_point : name ≠ "."
  ne_points : name ≠ ".."
  no_slash : '/' ∉ name.toList
  no_null : '\x00' ∉ name.toList

namespace Tree

variable {t : Tree} {start place place' names : List String} {name : String}

theorem isGiven_concat (h : IsName name) (place : List String) :
    isGiven (place ++ [name]) = false := by
  have hroot : name ≠ "/" := by
    rintro rfl
    exact h.no_slash (by decide)
  cases place with
  | nil => simp [isGiven, hroot, h.ne_points]
  | cons n place => simp [isGiven, h.ne_points]

theorem isGiven_eq_false (h : t.node? place ≠ some .directory) : isGiven place = false := by
  rw [Bool.eq_false_iff]
  intro hgiven
  exact h (by rw [node?, if_pos hgiven])

theorem node?_put (h : isGiven place = false) (node : Node) :
    (t.put place node).node? place' = if place = place' then some node else t.node? place' := by
  by_cases hplace : place = place'
  · subst hplace
    have hgone : (t.nodes.filter fun n => n.1 != place).find? (fun n => n.1 == place) = none := by
      rw [List.find?_eq_none]
      intro n hn
      simpa using (List.mem_filter.mp hn).2
    simp [node?, put, h, List.find?_append, hgone]
  · have hkeep : (t.nodes.filter fun n => n.1 != place).find? (fun n => n.1 == place') =
        t.nodes.find? fun n => n.1 == place' := by
      rw [List.find?_filter]
      congr 1
      funext n
      by_cases hn : n.1 = place'
      · simp [hn, Ne.symm hplace]
      · simp [hn]
    simp [node?, put, List.find?_append, hkeep, hplace]

theorem resolveFrom_append (start names rest : List String) :
    t.resolveFrom start (names ++ rest) =
      t.resolveFrom start names >>= fun place => t.resolveFrom place rest := by
  induction names generalizing start with
  | nil => rfl
  | cons name names ih =>
      rw [List.cons_append, resolveFrom, resolveFrom]
      split
      · rfl
      · rfl
      · split
        · exact ih _
        · exact ih _

/-- What is put where no directory is leaves every way as it was. -/
theorem resolveFrom_put (hfree : t.node? place ≠ some .directory)
    (h : t.resolveFrom start names = .ok place') (node : Node) :
    (t.put place node).resolveFrom start names = .ok place' := by
  induction names generalizing start with
  | nil => exact h
  | cons name names ih =>
      rw [resolveFrom] at h ⊢
      split at h
      · cases h
      · cases h
      · next hstart =>
          have hne : place ≠ start := fun hplace => hfree (hplace ▸ hstart)
          rw [node?_put (isGiven_eq_false hfree), if_neg hne, hstart]
          split at h
          · next hup => simp only [hup, if_true, ih h]
          · next hdown => simp only [hdown, ih h]; rfl

theorem resolve_put {path : Path} (hfree : t.node? place ≠ some .directory)
    (h : t.resolve path = .ok place') (node : Node) :
    (t.put place node).resolve path = .ok place' := by
  rw [resolve] at h ⊢
  split at h
  · cases h
  · next hnull =>
      rw [if_neg hnull]
      exact resolveFrom_put hfree h node

/-- Where a file can be written, it can be written with any content. -/
theorem exists_writeBytes {t' : Tree} {path : Path} {bytes : List UInt8}
    (h : t.writeBytes path bytes = .ok t') (bytes' : List UInt8) :
    ∃ files, t.writeBytes path bytes' = .ok files := by
  rw [writeBytes] at h ⊢
  split at h
  · cases h
  · split at h
    · cases h
    · exact ⟨_, rfl⟩

/-! ## Directories that are made -/

/-- A path leads to a directory. -/
def IsDirectory (t : Tree) (path : Path) (place : List String) : Prop :=
  t.resolve path = .ok place ∧ t.node? place = some .directory

theorem isDirectory_of_makeOne {t' : Tree} {path : Path} (h : t.makeOne path = .ok t') :
    ∃ place, t'.IsDirectory path place := by
  rw [makeOne] at h
  split at h
  · cases h
  · next place hresolve =>
      split at h
      · next hnode => cases h; exact ⟨place, hresolve, hnode⟩
      · cases h
      · next hnode =>
          cases h
          have hfree : t.node? place ≠ some .directory := by simp [hnode]
          refine ⟨place, resolve_put hfree hresolve .directory, ?_⟩
          rw [node?_put (isGiven_eq_false hfree), if_pos rfl]

theorem isDirectory_of_makeEach {t' : Tree} {path : Path} {n : Nat} {ns : List Nat}
    (h : t.makeEach path (ns ++ [n]) = .ok t') :
    ∃ place, t'.IsDirectory { path with names := path.names.take n } place := by
  induction ns generalizing t with
  | nil =>
      obtain ⟨t₁, hone, hrest⟩ := Steps.exists_of_bind_eq_ok h
      cases hrest
      exact isDirectory_of_makeOne hone
  | cons m ns ih =>
      obtain ⟨t₁, -, hrest⟩ := Steps.exists_of_bind_eq_ok h
      exact ih hrest

/-- A directory that was made is there, whether its parents had to be made or not. -/
theorem isDirectory_of_makeDirectories {t' : Tree} {path : Path}
    (h : t.makeDirectories path = .ok t') : ∃ place, t'.IsDirectory path place := by
  rw [makeDirectories] at h
  split at h
  · next hmissing =>
      cases hnames : path.names with
      | nil =>
          -- a path without names leads to a directory that is always there
          have hthere : t.makeOne path = .ok t := by
            rw [makeOne, resolve, hnames]
            cases path.isAbsolute <;> simp [resolveFrom, node?, isGiven]
          rw [hthere] at hmissing
          cases hmissing
      | cons name names =>
          have hlast : (List.range path.names.length).map (· + 1) =
              (List.range names.length).map (· + 1) ++ [path.names.length] := by
            rw [hnames, List.length_cons, List.range_succ, List.map_append]
            rfl
          rw [hlast] at h
          obtain ⟨place, hplace⟩ := isDirectory_of_makeEach h
          rw [List.take_length] at hplace
          exact ⟨place, hplace⟩
  · exact isDirectory_of_makeOne h

/-! ## Below a directory -/

/-- A path leads to a directory that holds no directory under some names. -/
structure Open (t : Tree) (directory : Path) (place names : List String) : Prop where
  isDirectory : t.IsDirectory directory place
  free : ∀ name ∈ names, t.node? (place ++ [name]) ≠ some .directory
  isName : ∀ name ∈ names, IsName name

section Open

variable {directory : Path}

/-- A name leads from a directory to a place right below it. -/
theorem IsDirectory.resolve_below (h : t.IsDirectory directory place) (hname : IsName name) :
    t.resolve (directory.below name) = .ok (place ++ [name]) := by
  obtain ⟨hresolve, hnode⟩ := h
  rw [Path.below_of_slash_not_mem directory hname.no_slash hname.ne_empty hname.ne_point]
  rw [Tree.resolve] at hresolve ⊢
  split at hresolve
  · cases hresolve
  · next hnull =>
      have hnull' : ¬ (directory.names ++ [name]).any (·.toList.contains '\x00') := by
        simpa [hname.no_null] using hnull
      have hlast : t.resolveFrom place [name] = .ok (place ++ [name]) := by
        simp [resolveFrom, hnode, hname.ne_points]
      rw [if_neg hnull', resolveFrom_append]
      rw [Path.isAbsolute] at hresolve ⊢
      rw [hresolve]
      exact hlast

theorem IsDirectory.at?_below (h : t.IsDirectory directory place) (hname : IsName name) :
    t.at? (directory.below name) = t.node? (place ++ [name]) := by
  rw [Tree.at?, h.resolve_below hname]

theorem Open.resolve_below (h : t.Open directory place names) (hname : name ∈ names) :
    t.resolve (directory.below name) = .ok (place ++ [name]) :=
  h.isDirectory.resolve_below (h.isName name hname)

theorem Open.writeText (h : t.Open directory place names) (hname : name ∈ names) (text : String) :
    t.writeText (directory.below name) text =
      .ok (t.put (place ++ [name]) (.file text.toUTF8.toList)) := by
  rw [Tree.writeText, writeBytes, h.resolve_below hname]
  have hfree := h.free name hname
  cases hnode : t.node? (place ++ [name]) with
  | none => simp only [hnode]
  | some node =>
      cases node with
      | directory => exact absurd hnode hfree
      | file bytes => simp only [hnode]

theorem Open.put (h : t.Open directory place names) (hname : name ∈ names) (bytes : List UInt8) :
    (t.put (place ++ [name]) (.file bytes)).Open directory place names where
  isDirectory := by
    obtain ⟨hresolve, hnode⟩ := h.isDirectory
    refine ⟨resolve_put (h.free name hname) hresolve _, ?_⟩
    rw [node?_put (isGiven_concat (h.isName name hname) place), if_neg (by simp), hnode]
  free := by
    intro other hother
    rw [node?_put (isGiven_concat (h.isName name hname) place)]
    split
    · rintro ⟨⟩
    · exact h.free other hother
  isName := h.isName

/-- The tree after files were written below a directory, one after the other. -/
def putFiles (t : Tree) (place : List String) (files : List (String × String)) : Tree :=
  files.foldl (fun t f => t.put (place ++ [f.1]) (.file f.2.toUTF8.toList)) t

theorem Open.putFiles {files : List (String × String)} (h : t.Open directory place names)
    (hfiles : ∀ f ∈ files, f.1 ∈ names) : (t.putFiles place files).Open directory place names := by
  induction files generalizing t with
  | nil => exact h
  | cons f files ih =>
      obtain ⟨hf, hfiles⟩ := List.forall_mem_cons.mp hfiles
      exact ih (h.put hf _) hfiles

/-- A name holds what was written to it last. -/
theorem Open.node?_putFiles {files : List (String × String)} (h : t.Open directory place names)
    (hfiles : ∀ f ∈ files, f.1 ∈ names) (name : String) :
    (t.putFiles place files).node? (place ++ [name]) =
      ((Entries.get? files.reverse name).map fun text => .file text.toUTF8.toList).or
        (t.node? (place ++ [name])) := by
  induction files generalizing t with
  | nil => rfl
  | cons f files ih =>
      obtain ⟨hf, hfiles⟩ := List.forall_mem_cons.mp hfiles
      have hstep : t.putFiles place (f :: files) =
          (t.put (place ++ [f.1]) (.file f.2.toUTF8.toList)).putFiles place files := rfl
      rw [hstep, ih (h.put hf _) hfiles, List.reverse_cons, Entries.get?_append, Entries.get?_cons,
        node?_put (isGiven_concat (h.isName f.1 hf) place)]
      cases Entries.get? files.reverse name with
      | some text => rfl
      | none =>
          by_cases hname : f.1 = name
          · simp [hname]
          · simp [hname]

theorem Open.readBytes (h : t.Open directory place names) (hname : name ∈ names)
    {bytes : List UInt8} (hnode : t.node? (place ++ [name]) = some (.file bytes)) :
    t.readBytes (directory.below name) = .ok bytes := by
  rw [Tree.readBytes, h.resolve_below hname]
  simp only [hnode]

end Open

/-! ## Reading -/

theorem exists?_of_readBytes {path : Path} {bytes : List UInt8}
    (h : t.readBytes path = .ok bytes) : t.exists? path = true := by
  rw [readBytes] at h
  split at h
  · cases h
  · next place hplace =>
    split at h
    next hnode => simp [exists?, at?, hplace, hnode]
    · cases h
    · cases h

/-- A text that is written to a file is read back, if its lines end in line feeds. -/
theorem readText_of_writeText {t' : Tree} {path : Path} {s : String}
    (h : t.writeText path s = .ok t') (hline : '\r' ∉ s.toList) : t'.readText path = .ok s := by
  rw [Tree.writeText, writeBytes] at h
  split at h
  · cases h
  · next place hresolve =>
      split at h
      · cases h
      · next hfree =>
          cases h
          have hread : (t.put place (.file s.toUTF8.toList)).readBytes path =
              .ok s.toUTF8.toList := by
            simp only [readBytes, resolve_put hfree hresolve,
              node?_put (isGiven_eq_false hfree), if_true]
          have hdecode : Text.decodeUtf8 s.toUTF8.toList = .ok s.toList :=
            Text.decodeUtf8_eq_ok_iff.mpr (Text.toList_toUTF8 s)
          rw [Tree.readText, hread]
          show ((Text.decodeUtf8 s.toUTF8.toList).mapError TextFault.encoding >>= fun cs =>
            pure (String.ofList (Text.plainLines cs))) = _
          rw [hdecode]
          show Except.ok (String.ofList (Text.plainLines s.toList)) = _
          rw [Text.plainLines_of_not_mem hline, String.ofList_toList]

theorem exists?_of_readText {path : Path} {s : String} (h : t.readText path = .ok s) :
    t.exists? path = true := by
  obtain ⟨bytes, hbytes, -⟩ := Steps.exists_of_bind_eq_ok h
  exact exists?_of_readBytes (Steps.eq_ok_of_mapError hbytes)

/-- The bytes of a file are refused as a text exactly if they are the code of none. -/
theorem readText_ne_encoding_iff {path : Path} : (∀ e, t.readText path ≠ .error (.encoding e)) ↔
    ∀ bytes, t.readBytes path = .ok bytes → Text.IsUtf8 bytes := by
  rw [readText]
  cases t.readBytes path with
  | error fault => exact iff_of_true nofun nofun
  | ok bytes =>
      simp only [Except.ok.injEq, forall_eq', ← Text.exists_decodeUtf8_iff]
      show (∀ e, ((Text.decodeUtf8 bytes).mapError TextFault.encoding >>= fun cs =>
        pure (String.ofList (Text.plainLines cs))) ≠ .error (TextFault.encoding e)) ↔ _
      cases Text.decodeUtf8 bytes with
      | ok cs => exact iff_of_true nofun ⟨cs, rfl⟩
      | error e => exact iff_of_false (fun h => h e rfl) nofun

/-- Where faults are answered for, what is left to fail otherwise are bytes that are no text, and
texts that the rest fails for. -/
theorem readText_failsWith_iff {α ε : Type} {path : Path} {P : ε → Prop} {wording : TextFault → ε}
    {rest : String → Except ε α} {Q : String → Prop} (hfault : ∀ fault, P (wording (.fault fault)))
    (hencoding : ∀ e, ¬ P (wording (.encoding e)))
    (hrest : ∀ text, Steps.FailsWith P (rest text) ↔ Q text) :
    Steps.FailsWith P ((t.readText path).mapError wording >>= rest) ↔
      (∀ bytes, t.readBytes path = .ok bytes → Text.IsUtf8 bytes) ∧
        ∀ text, t.readText path = .ok text → Q text := by
  rw [← readText_ne_encoding_iff]
  cases t.readText path with
  | ok text =>
      simp only [Except.ok.injEq, forall_eq', ← hrest]
      exact (and_iff_right nofun).symm
  | error cause =>
      cases cause with
      | fault fault => exact iff_of_true (Steps.failsWith_error (hfault fault)) ⟨nofun, nofun⟩
      | encoding e =>
          exact iff_of_false (fun h => hencoding e (h _ rfl)) fun h => h.1 e rfl

end Tree

end DtoForge.Files
