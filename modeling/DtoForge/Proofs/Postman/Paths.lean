import DtoForge.Proofs.Postman.Conversion
import DtoForge.Proofs.Text.Pieces

/-! # Paths — the form of imported ones

An address of any shape gives a path with a slash in front. The slash starts no placeholder, so it is
still there when the placeholders are replaced, and the runs of slashes that the address or the values
brought in become single ones last. -/

namespace DtoForge.Postman

/-- A path that starts with a slash and has no two slashes in a row. -/
structure IsNormalPath (path : String) : Prop where
  start : ['/'] <+: path.toList
  single : ¬ ['/', '/'] <:+: path.toList

/-! ## Addresses -/

theorem start_of_rooted (path : String) : ['/'] <+: (rooted path).toList := by
  rw [rooted]
  split
  next h => exact List.isPrefixOf_iff_prefix.mp h
  next =>
    rw [String.toList_append]
    exact List.prefix_append _ _

theorem start_of_textPath {address path : String} (h : textPath address = .ok path) :
    ['/'] <+: path.toList := by
  rw [textPath] at h
  split at h
  · cases h
    exact List.prefix_rfl
  · split at h
    · split at h
      · cases h
        exact start_of_rooted _
      · cases h
    · cases h
      exact start_of_rooted _

/-- Whatever stands for an address, its path starts with a slash. -/
theorem start_of_requestPath {address : Json} {path : String} (h : requestPath address = .ok path) :
    ['/'] <+: path.toList := by
  unfold requestPath at h
  split at h
  · split at h
    · obtain ⟨segments, -, h⟩ := Steps.exists_of_bind_eq_ok h
      cases h
      rw [String.toList_append]
      exact List.prefix_append _ _
    · split at h
      · exact start_of_textPath h
      · cases h
        exact List.prefix_rfl
  · exact start_of_textPath h
  · cases h
    exact List.prefix_rfl

/-! ## Placeholders -/

variable {c : Char}

/-- Only a brace starts a placeholder. -/
theorem placeholder?_cons_of_ne (hc : c ≠ '\x7b') (cs : List Char) :
    placeholder? (c :: cs) = none := by
  unfold placeholder?
  split
  next heq =>
    cases heq
    exact absurd rfl hc
  next => rfl

theorem exists_addChar (c : Char) (ps : List Piece) :
    ∃ cs ps', addChar c ps = .text (c :: cs) :: ps' := by
  unfold addChar
  split
  · exact ⟨_, _, rfl⟩
  · exact ⟨[], ps, rfl⟩

theorem start_of_joinTexts {position : Nat} {s t : String} {vs : List Json}
    (h : joinTexts position (.str s :: vs) = .ok t) : s.toList <+: t.toList := by
  obtain ⟨rest, -, rfl⟩ := Steps.exists_of_map_eq_ok h
  rw [String.toList_append]
  exact List.prefix_append _ _

/-- A text that does not start with a placeholder starts as before when its placeholders are
replaced, whatever they are replaced with. -/
theorem start_of_replaceVariables {environment : Json} {s t : String}
    (h : replaceVariables environment (.str s) = .ok t) (hc : c ≠ '\x7b') (hs : [c] <+: s.toList) :
    [c] <+: t.toList := by
  obtain ⟨cs, hcs⟩ := hs
  -- the first piece is a text with the character in front, and texts are their own values
  obtain ⟨piece, ps, hpieces⟩ : ∃ piece ps, pieces s = .text (c :: piece) :: ps := by
    rw [pieces, ← hcs, List.singleton_append, piecesFrom, placeholder?_cons_of_ne hc]
    exact exists_addChar c _
  obtain ⟨s', hs', h⟩ := Steps.exists_of_bind_eq_ok h
  cases hs'
  obtain ⟨values, hvalues, h⟩ := Steps.exists_of_bind_eq_ok h
  rw [RawText.legible_whole, hpieces, List.mapM_cons] at hvalues
  obtain ⟨v, hv, hvalues⟩ := Steps.exists_of_bind_eq_ok hvalues
  obtain ⟨vs, -, hvalues⟩ := Steps.exists_of_bind_eq_ok hvalues
  cases hv
  cases hvalues
  have hstart := start_of_joinTexts h
  rw [String.toList_ofList] at hstart
  exact (List.prefix_append [c] piece).trans hstart

/-! ## Paths -/

/-- A path that starts with a slash is normal once its runs of slashes are single ones. -/
theorem isNormalPath_normalizePath {path : String} (h : ['/'] <+: path.toList) :
    IsNormalPath (normalizePath path) := by
  obtain ⟨cs, hcs⟩ := h
  obtain ⟨rest, hrest⟩ : ∃ rest, Text.squeeze (· == '/') '/' path.toList = '/' :: rest := by
    rw [← hcs, List.singleton_append]
    exact ⟨_, Text.squeeze_cons_of_pos rfl '/' cs⟩
  have hnormal : (normalizePath path).toList = '/' :: rest := by
    rw [normalizePath, hrest, Naming.orElse, if_neg (by simp), String.toList_ofList]
  refine ⟨?start, ?single⟩
  case start =>
    rw [hnormal]
    exact List.prefix_append ['/'] rest
  case single =>
    rw [hnormal, ← hrest]
    exact Text.not_marks_infix_squeeze rfl path.toList

theorem isNormalPath_of_draftOf {environment : Json} {item request : Entries Json} {d : Draft}
    (h : draftOf environment item request = .ok d) : IsNormalPath d.path := by
  obtain ⟨response, -, h⟩ := Steps.exists_of_bind_eq_ok h
  obtain ⟨headers, -, h⟩ := Steps.exists_of_bind_eq_ok h
  obtain ⟨body, -, h⟩ := Steps.exists_of_bind_eq_ok h
  obtain ⟨address, haddress, h⟩ := Steps.exists_of_bind_eq_ok h
  obtain ⟨path, hpath, h⟩ := Steps.exists_of_bind_eq_ok h
  have hdraft : d.path = normalizePath path := by rw [← Except.ok.inj h]
  have hstart : ['/'] <+: path.toList :=
    start_of_replaceVariables (Steps.eq_ok_of_mapError hpath) (by decide)
      (start_of_requestPath haddress)
  rw [hdraft]
  exact isNormalPath_normalizePath hstart

/-- **Imported paths are normal**, whatever the addresses of the requests are and whatever their
variables are replaced with. -/
theorem isNormalPath_of_importCollection {data environment : Json} {n n' : Nat} {c : Collection}
    (h : (importCollection data environment).run.run n = (.ok c, n')) :
    ∀ e ∈ c.endpoints, ∃ path : String, e.path = .str path ∧ IsNormalPath path := by
  intro e he
  obtain ⟨item, hitem⟩ := exists_converts_of_mem h he
  obtain ⟨request, draft, -, hdraft, hpath⟩ := hitem.exists_draft
  exact ⟨draft.path, hpath, isNormalPath_of_draftOf hdraft⟩

/-- A request for an address. -/
def requestFor (url : Json) : Json :=
  .object [("request", .object [("url", url)])]

/-- Requests with slashes in a row in their addresses, in front of them and in the values of their
variables. -/
def slashes : Json :=
  collectionOf [
    requestFor (.str "https://shop.test//a///\x7b\x7bregion\x7d\x7d//b?x=//"),
    requestFor (.str "\x7b\x7bregion\x7d\x7d\x7b\x7buserId\x7d\x7d"),
    requestFor (.object [("path", .list [.str "/a/", .int 1, .str ""])]),
    requestFor (.object [("raw", .str "\x7b\x7bempty\x7d\x7d")]), requestFor .null]

/-- Variables with slashes and braces in their values. -/
def slashValues : Json :=
  .object [("region", .str "//\x7b\x7beu\x7d\x7d//"), ("empty", .str "/")]

/-- Every slash is a single one. -/
theorem isNormalPath_of_importCollection_slashes :
    ∃ c n', (importCollection slashes slashValues).run.run 0 = (.ok c, n') ∧
      c.endpoints.map (·.path) = [.str "/a/\x7b\x7beu\x7d\x7d/b", .str "/\x7b\x7beu\x7d\x7d/:userid",
        .str "/a/1/", .str "/", .str "/"] ∧
      ∀ e ∈ c.endpoints, ∃ path : String, e.path = .str path ∧ IsNormalPath path := by
  have hpasses : Steps.passes ((importCollection slashes slashValues).run.run 0) (fun c _ =>
      c.endpoints.map (·.path) == [.str "/a/\x7b\x7beu\x7d\x7d/b", .str "/\x7b\x7beu\x7d\x7d/:userid",
        .str "/a/1/", .str "/", .str "/"]) = true := by
    decide +kernel
  obtain ⟨c, n', h, hcheck⟩ := Steps.exists_of_passes hpasses
  exact ⟨c, n', h, eq_of_beq hcheck, isNormalPath_of_importCollection h⟩

end DtoForge.Postman
