import Mathlib.Data.List.Induction
import Mathlib.Data.List.Nodup
import Mathlib.Data.List.Perm.Subperm
import DtoForge.Naming.Sanitizer
import DtoForge.Proofs.Json.Entries
import DtoForge.Proofs.Text.Raw
import DtoForge.Proofs.Text.Separator

/-! # Sanitizer — one identifier for each request

A request is a name with a casing and a suffix. The key under which an answer is kept tells requests
apart, and an identifier in use is never given out again, so two answers agree exactly if the
requests do. `GivesWay` is the search for a free name as it goes from one candidate to the next:
`firstFree`, which looks at as many candidates as can be in use and one more, is where it ends. -/

namespace DtoForge.Naming

/-! ## Giving way -/

/-- The search for a free name: a candidate in use gives way to the original name with the next
number. -/
inductive GivesWay (used : List String) (original : String) : String → Nat → String → Prop
  | free {candidate next} : candidate ∉ used → GivesWay used original candidate next candidate
  | taken {candidate next answer} : candidate ∈ used →
      GivesWay used original (original ++ toString next) (next + 1) answer →
      GivesWay used original candidate next answer

/-- The forms of a name are all different. -/
theorem numbered_injective (name : String) : Function.Injective (numbered name) := by
  have hmarked : ∀ n : Nat, name ≠ name ++ toString n := by
    intro n h
    have hempty : "" = toString n := by
      apply (String.append_right_inj name).mp
      rw [← h, String.append_empty]
    exact Nat.repr_ne_empty (Nat.toString_eq_repr.symm.trans hempty.symm)
  intro m n h
  unfold numbered at h
  split at h <;> split at h
  · omega
  · exact absurd h (hmarked n)
  · exact absurd h.symm (hmarked m)
  · exact Text.toString_injective ((String.append_right_inj name).mp h)

/-- One of the first forms is free: more of them than names in use cannot all be in use. -/
theorem exists_numbered_not_mem (used : List String) (name : String) :
    ∃ n ≤ used.length, numbered name n ∉ used := by
  by_contra hall
  have hused : (List.range (used.length + 1)).map (numbered name) ⊆ used := by
    intro candidate hcandidate
    obtain ⟨n, hn, rfl⟩ := List.mem_map.mp hcandidate
    rw [List.mem_range] at hn
    by_contra hfree
    exact hall ⟨n, by omega, hfree⟩
  have hnodup : ((List.range (used.length + 1)).map (numbered name)).Nodup :=
    List.Nodup.map (numbered_injective name) List.nodup_range
  have hlength := (List.subperm_of_subset hnodup hused).length_le
  rw [List.length_map, List.length_range] at hlength
  omega

/-- The first free form is free, and all forms before it are in use. -/
theorem firstFree_eq_numbered (used : List String) (name : String) :
    ∃ n, firstFree used name = numbered name n ∧ numbered name n ∉ used ∧
      ∀ m < n, numbered name m ∈ used := by
  have hfound : ((List.range (used.length + 1)).find?
      ((fun c => !used.contains c) ∘ numbered name)).isSome := by
    obtain ⟨n, hn, hfree⟩ := exists_numbered_not_mem used name
    rw [List.find?_isSome]
    exact ⟨n, List.mem_range.mpr (by omega), by simpa using hfree⟩
  obtain ⟨n, hn⟩ := Option.isSome_iff_exists.mp hfound
  obtain ⟨hfree, -, hbefore⟩ := List.find?_range_eq_some.mp hn
  refine ⟨n, ?_, by simpa using hfree, ?_⟩
  · rw [firstFree, List.find?_map, hn]
    rfl
  · intro m hm
    simpa using hbefore m hm

/-- The search passes the forms in use and ends at the first one that is free. -/
theorem givesWay_of_least {used : List String} {name : String} {n : Nat}
    (hfree : numbered name n ∉ used) (hbefore : ∀ m < n, numbered name m ∈ used) :
    GivesWay used name name 1 (numbered name n) := by
  -- from any of these forms on, by induction on how many are left
  have hfrom : ∀ left m, m + left = n →
      GivesWay used name (numbered name m) (m + 1) (numbered name n) := by
    intro left
    induction left with
    | zero =>
        rintro m rfl
        exact GivesWay.free hfree
    | succ left ih =>
        intro m hm
        have hnext : numbered name (m + 1) = name ++ toString (m + 1) := if_neg (Nat.succ_ne_zero m)
        apply GivesWay.taken (hbefore m (by omega))
        rw [← hnext]
        exact ih (m + 1) (by omega)
  exact hfrom n 0 (Nat.zero_add n)

/-! ## Requests -/

/-- What an identifier is asked for: a name, its casing, and the suffix that sets it apart from the
words of the language. -/
structure Request where
  name : RawText
  casing : Casing := .snake
  suffix : String := "_"
  deriving DecidableEq

namespace Request

/-- The key under which the answer is kept. -/
def key (r : Request) : RawText :=
  NameTable.requestKey r.name r.casing r.suffix

/-- The identifier that is wanted, before it gives way to those in use. -/
def word (v : Vocabulary) (r : Request) : String :=
  let word := guardDigit "_" (orElse (r.casing.apply (clean r.name.legible)) "field")
  if v.takes word then word ++ r.suffix else word

/-- A request whose suffix cannot be taken for a part of the key. -/
def Plain (r : Request) : Prop :=
  '\x00' ∉ r.suffix.toList

instance (r : Request) : Decidable r.Plain :=
  inferInstanceAs (Decidable (¬ _))

end Request

/-- The points of a text behind the last NUL, and those before it, are determined by the whole. -/
theorem append_nul_inj {a b : List Point} {x y : String} (hx : '\x00' ∉ x.toList)
    (hy : '\x00' ∉ y.toList)
    (h : a ++ .char '\x00' :: x.toList.map .char = b ++ .char '\x00' :: y.toList.map .char) :
    a = b ∧ x = y := by
  have hpoints : ∀ {s : String}, '\x00' ∉ s.toList → .char '\x00' ∉ s.toList.map Point.char :=
    fun hs => by simpa using hs
  obtain ⟨hfront, hback⟩ := Text.last_separator_inj (hpoints hx) (hpoints hy) h
  exact ⟨hfront, RawText.whole.inj (RawText.points_injective hback)⟩

/-- The points of a key: those of the name, the casing and the suffix, with a NUL between them. -/
theorem Request.points_key (r : Request) :
    r.key.points = (r.name.points ++ .char '\x00' :: r.casing.word.toList.map .char) ++
      .char '\x00' :: r.suffix.toList.map .char := by
  have hnul : "\x00".toList = ['\x00'] := rfl
  simp only [key, NameTable.requestKey, RawText.points_append, String.toList_append,
    List.map_append, hnul, List.map_cons, List.append_assoc, List.cons_append, List.nil_append]

theorem Casing.word_injective : Function.Injective Casing.word := by
  intro c c' h
  cases c <;> cases c' <;> simp_all [Casing.word]

/-- The key tells plain requests apart. -/
theorem Request.key_inj {r r' : Request} (hr : r.Plain) (hr' : r'.Plain) (h : r.key = r'.key) :
    r = r' := by
  have hplain : ∀ c : Casing, '\x00' ∉ c.word.toList := by
    intro c
    cases c <;> decide
  have hpoints := congrArg RawText.points h
  rw [points_key, points_key] at hpoints
  obtain ⟨hfront, hsuffix⟩ := append_nul_inj hr hr' hpoints
  obtain ⟨hname, hword⟩ := append_nul_inj (hplain _) (hplain _) hfront
  obtain ⟨name, casing, suffix⟩ := r
  obtain ⟨name', casing', suffix'⟩ := r'
  obtain rfl := Casing.word_injective hword
  dsimp only at hname hsuffix
  rw [RawText.points_injective hname, hsuffix]

/-! ## One request -/

namespace NameTable

variable {table : NameTable} {v : Vocabulary} {r : Request}

/-- The identifier of a request, and the table with it. -/
def answer (table : NameTable) (v : Vocabulary) (r : Request) : String × NameTable :=
  table.identify v r.name r.casing r.suffix

theorem answer_of_given {a : String} (h : table.given.get? r.key = some a) :
    table.answer v r = (a, table) := by
  unfold Request.key at h
  rw [answer, identify, h]

theorem answer_of_new (h : table.given.get? r.key = none) :
    table.answer v r = (firstFree table.used (r.word v),
      { given := table.given.put r.key (firstFree table.used (r.word v))
        used := firstFree table.used (r.word v) :: table.used }) := by
  unfold Request.key at h
  rw [answer, identify, h]
  rfl

/-- No identifier is given under two keys, and those in use are those that are given. -/
structure Distinct (table : NameTable) : Prop where
  key_eq : ∀ {key key' a}, table.given.get? key = some a → table.given.get? key' = some a →
    key = key'
  mem_used : ∀ {a}, a ∈ table.used ↔ ∃ key, table.given.get? key = some a

theorem distinct_empty : Distinct {} where
  key_eq := by simp
  mem_used := by simp

/-- Answering a request adds at most its own answer, and keeps identifiers distinct. -/
theorem Distinct.answer (h : table.Distinct) (v : Vocabulary) (r : Request) :
    (table.answer v r).2.Distinct ∧
      ∀ key, (table.answer v r).2.given.get? key =
        if r.key = key then some (table.answer v r).1 else table.given.get? key := by
  cases hgiven : table.given.get? r.key with
  | some a =>
      rw [answer_of_given hgiven]
      refine ⟨h, ?_⟩
      intro key
      split
      · next hkey => rw [← hkey, hgiven]
      · rfl
  | none =>
      obtain ⟨n, hanswer, hfree, -⟩ := firstFree_eq_numbered table.used (r.word v)
      rw [← hanswer] at hfree
      rw [answer_of_new hgiven]
      -- an identifier that was given before is in use, so it is not the one given now
      have hold : ∀ {key a}, table.given.get? key = some a →
          a ≠ firstFree table.used (r.word v) := by
        rintro key a hkey rfl
        exact hfree (h.mem_used.mpr ⟨key, hkey⟩)
      have hget := fun key =>
        Entries.get?_put table.given r.key (firstFree table.used (r.word v)) key
      refine ⟨?_, hget⟩
      exact {
        key_eq := by
          intro key key' a hkey hkey'
          rw [hget] at hkey hkey'
          split at hkey <;> split at hkey'
          · next heq heq' => rw [← heq, ← heq']
          · exact absurd (Option.some.inj hkey).symm (hold hkey')
          · exact absurd (Option.some.inj hkey').symm (hold hkey)
          · exact h.key_eq hkey hkey'
        mem_used := by
          intro a
          simp only [hget, List.mem_cons, h.mem_used]
          constructor
          · rintro (rfl | ⟨key, hkey⟩)
            · exact ⟨r.key, if_pos rfl⟩
            · refine ⟨key, ?_⟩
              rw [if_neg, hkey]
              rintro rfl
              rw [hgiven] at hkey
              cases hkey
          · rintro ⟨key, hkey⟩
            split at hkey
            · exact Or.inl (Option.some.inj hkey).symm
            · exact Or.inr ⟨key, hkey⟩ }

/-! ## Several requests -/

/-- The identifiers of requests in order, and the table after them. -/
def answerAll (v : Vocabulary) : NameTable → List Request → List String × NameTable
  | table, [] => ([], table)
  | table, r :: rs =>
    let (a, table) := table.answer v r
    let (answers, table) := answerAll v table rs
    (a :: answers, table)

theorem answerAll_cons (v : Vocabulary) (table : NameTable) (r : Request) (rs : List Request) :
    answerAll v table (r :: rs) =
      ((table.answer v r).1 :: (answerAll v (table.answer v r).2 rs).1,
        (answerAll v (table.answer v r).2 rs).2) := rfl

theorem answerAll_append (v : Vocabulary) (table : NameTable) (rs rs' : List Request) :
    answerAll v table (rs ++ rs') =
      ((answerAll v table rs).1 ++ (answerAll v (answerAll v table rs).2 rs').1,
        (answerAll v (answerAll v table rs).2 rs').2) := by
  induction rs generalizing table with
  | nil => rfl
  | cons r rs ih => rw [List.cons_append, answerAll_cons, answerAll_cons, ih, List.cons_append]

@[simp] theorem length_answerAll (v : Vocabulary) (table : NameTable) (rs : List Request) :
    (answerAll v table rs).1.length = rs.length := by
  induction rs generalizing table with
  | nil => rfl
  | cons r rs ih => rw [answerAll_cons, List.length_cons, ih, List.length_cons]

/-- After several requests the table is distinct, it keeps what was given before, and it gives to
the key of every request its answer. -/
theorem Distinct.answerAll (h : table.Distinct) (v : Vocabulary) (rs : List Request) :
    (NameTable.answerAll v table rs).2.Distinct ∧
      (∀ key a, table.given.get? key = some a →
        (NameTable.answerAll v table rs).2.given.get? key = some a) ∧
      ∀ (i : Nat) (r : Request) (a : String), rs[i]? = some r →
        (NameTable.answerAll v table rs).1[i]? = some a →
        (NameTable.answerAll v table rs).2.given.get? r.key = some a := by
  induction rs generalizing table with
  | nil => exact ⟨h, fun _ _ hkey => hkey, by simp⟩
  | cons r rs ih =>
      rw [answerAll_cons]
      obtain ⟨hdistinct, hget⟩ := h.answer v r
      obtain ⟨hrest, hkept, hanswers⟩ := ih hdistinct
      refine ⟨hrest, ?_, ?_⟩
      · intro key a hkey
        apply hkept
        rw [hget]
        split
        · next heq =>
            subst heq
            rw [answer_of_given hkey]
        · exact hkey
      · intro i r' a hr' ha
        cases i with
        | zero =>
            obtain rfl : r = r' := by simpa using hr'
            obtain rfl : (table.answer v r).1 = a := by simpa using ha
            apply hkept
            rw [hget, if_pos rfl]
        | succ i => exact hanswers i r' a hr' ha

/-- Whatever is given after several requests was given before or answers one of them. -/
theorem Distinct.given_of_answerAll (h : table.Distinct) {rs : List Request} {key : RawText}
    {a : String}
    (hkey : (NameTable.answerAll v table rs).2.given.get? key = some a) :
    table.given.get? key = some a ∨
      (∃ r ∈ rs, r.key = key) ∧ a ∈ (NameTable.answerAll v table rs).1 := by
  induction rs generalizing table with
  | nil => exact Or.inl hkey
  | cons r rs ih =>
      rw [answerAll_cons] at hkey ⊢
      obtain ⟨hdistinct, hget⟩ := h.answer v r
      rcases ih hdistinct hkey with hbefore | ⟨⟨r', hr', hkey'⟩, ha⟩
      · rw [hget] at hbefore
        split at hbefore
        · next heq =>
            obtain rfl := Option.some.inj hbefore
            exact Or.inr ⟨⟨r, List.mem_cons_self, heq⟩, List.mem_cons_self⟩
        · exact Or.inl hbefore
      · exact Or.inr ⟨⟨r', List.mem_cons_of_mem _ hr', hkey'⟩, List.mem_cons_of_mem _ ha⟩

/-- After requests to a fresh table, the identifiers in use are the answers. -/
theorem mem_used_answerAll {rs : List Request} {a : String} :
    a ∈ (answerAll v {} rs).2.used ↔ a ∈ (answerAll v {} rs).1 := by
  obtain ⟨hdistinct, -, hanswers⟩ := distinct_empty.answerAll v rs
  rw [hdistinct.mem_used]
  constructor
  · rintro ⟨key, hkey⟩
    rcases distinct_empty.given_of_answerAll hkey with hnone | ⟨-, ha⟩
    · cases hnone
    · exact ha
  · intro ha
    obtain ⟨i, hi⟩ := List.mem_iff_getElem?.mp ha
    have hlt : i < rs.length := by
      rw [← length_answerAll v {} rs]
      exact (List.getElem?_eq_some_iff.mp hi).1
    exact ⟨_, hanswers i rs[i] a (List.getElem?_eq_getElem hlt) hi⟩

end NameTable

/-! ## All answers -/

/-- The identifiers that a fresh table gives to requests in order. -/
def answers (v : Vocabulary) (requests : List Request) : List String :=
  (NameTable.answerAll v {} requests).1

/-- Different plain requests get different identifiers. -/
theorem answers_nodup (v : Vocabulary) {requests : List Request}
    (hplain : ∀ r ∈ requests, r.Plain) (hnodup : requests.Nodup) : (answers v requests).Nodup := by
  obtain ⟨hdistinct, -, hanswers⟩ := NameTable.distinct_empty.answerAll v requests
  have hlength : (answers v requests).length = requests.length := NameTable.length_answerAll v {} _
  rw [List.nodup_iff_getElem?_ne_getElem?]
  intro i j hij hj heq
  have hi : i < (answers v requests).length := Nat.lt_trans hij hj
  have hanswer := List.getElem?_eq_getElem hi
  rw [hlength] at hi hj
  have hkey := hanswers i _ _ (List.getElem?_eq_getElem hi) hanswer
  have hkey' := hanswers j _ _ (List.getElem?_eq_getElem hj) (heq ▸ hanswer)
  -- one answer is given under one key, and the key tells the requests apart
  have hsame := Request.key_inj (hplain _ (List.getElem_mem hi)) (hplain _ (List.getElem_mem hj))
    (hdistinct.key_eq hkey hkey')
  exact Nat.ne_of_lt hij (hnodup.getElem_inj_iff.mp hsame)

/-- The answers so far stand before the answer to the next request. -/
theorem exists_answers_append_cons (v : Vocabulary) (before after : List Request) (r : Request) :
    ∃ rest, answers v (before ++ r :: after) =
      answers v before ++ ((NameTable.answerAll v {} before).2.answer v r).1 :: rest := by
  refine ⟨(NameTable.answerAll v ((NameTable.answerAll v {} before).2.answer v r).2 after).1, ?_⟩
  rw [answers, NameTable.answerAll_append, NameTable.answerAll_cons]
  rfl

/-- A request that was not made before gets the first form of its word that is not among the answers
so far, and the search for it comes to an end. -/
theorem answer_of_not_mem (v : Vocabulary) {before : List Request} {r : Request}
    (hbefore : ∀ r' ∈ before, r'.Plain) (hr : r.Plain) (hnew : r ∉ before) :
    let a := ((NameTable.answerAll v {} before).2.answer v r).1
    GivesWay (answers v before) (r.word v) (r.word v) 1 a ∧
      ∃ n, a = numbered (r.word v) n ∧ a ∉ answers v before ∧
        ∀ m < n, numbered (r.word v) m ∈ answers v before := by
  intro a
  have hgiven : (NameTable.answerAll v {} before).2.given.get? r.key = none := by
    by_contra hsome
    obtain ⟨a', ha'⟩ := Option.ne_none_iff_exists'.mp hsome
    rcases NameTable.distinct_empty.given_of_answerAll ha' with hnone | ⟨⟨r', hr', hkey⟩, -⟩
    · cases hnone
    · exact hnew (Request.key_inj (hbefore r' hr') hr hkey ▸ hr')
  have ha : a = firstFree (NameTable.answerAll v {} before).2.used (r.word v) := by
    show (NameTable.answer _ _ _).1 = _
    rw [NameTable.answer_of_new hgiven]
  obtain ⟨n, hn, hfree, hused⟩ :=
    firstFree_eq_numbered (NameTable.answerAll v {} before).2.used (r.word v)
  simp only [NameTable.mem_used_answerAll] at hfree hused
  rw [ha, hn]
  exact ⟨givesWay_of_least hfree hused, n, rfl, hfree, hused⟩

/-- Requests for different words get their words: none has to give way. -/
theorem answers_eq_words (v : Vocabulary) {requests : List Request}
    (hplain : ∀ r ∈ requests, r.Plain) (hwords : (requests.map (Request.word v)).Nodup) :
    answers v requests = requests.map (Request.word v) := by
  induction requests using List.reverseRecOn with
  | nil => rfl
  | append_singleton before r ih =>
      rw [List.map_append, List.map_singleton, ← List.concat_eq_append, List.nodup_concat] at hwords
      obtain ⟨hfree, hbefore⟩ := hwords
      have hplain' : ∀ r' ∈ before, r'.Plain := fun r' hr' =>
        hplain r' (List.mem_append_left _ hr')
      have hanswers := ih hplain' hbefore
      obtain ⟨-, n, ha, -, hused⟩ := answer_of_not_mem v hplain'
        (hplain r (List.mem_append_right _ List.mem_cons_self))
        (fun hr => hfree (List.mem_map_of_mem hr))
      -- the word itself is the first form, and it is not in use
      have hzero : n = 0 := by
        by_contra hn
        exact hfree (hanswers ▸ hused 0 (Nat.pos_of_ne_zero hn))
      subst hzero
      show (NameTable.answerAll v {} (before ++ [r])).1 = _
      rw [NameTable.answerAll_append, List.map_append, ← hanswers]
      exact congrArg (fun a => answers v before ++ [a]) ha

/-- **Identifiers are unique and stable.** Two requests get the same identifier exactly if they ask
for the same. The search for a free name comes to an end, and where a number is appended it is the
least positive one whose form was not given before. -/
theorem answers_eq_iff_and_least (v : Vocabulary) (requests : List Request)
    (hplain : ∀ r ∈ requests, r.Plain) :
    (answers v requests).length = requests.length ∧
      (∀ (i j : Nat) (r r' : Request) (a a' : String), requests[i]? = some r →
        requests[j]? = some r' → (answers v requests)[i]? = some a →
        (answers v requests)[j]? = some a' → (a = a' ↔ r = r')) ∧
      ∀ (i : Nat) (r : Request) (a : String), requests[i]? = some r →
        (answers v requests)[i]? = some a → r ∉ requests.take i →
        let used := (answers v requests).take i
        GivesWay used (r.word v) (r.word v) 1 a ∧
          ∃ n, a = numbered (r.word v) n ∧ a ∉ used ∧ ∀ m < n, numbered (r.word v) m ∈ used := by
  obtain ⟨hdistinct, -, hanswers⟩ := NameTable.distinct_empty.answerAll v requests
  refine ⟨NameTable.length_answerAll v {} requests, ?_, ?_⟩
  · intro i j r r' a a' hr hr' ha ha'
    have hkey := hanswers i r a hr ha
    have hkey' := hanswers j r' a' hr' ha'
    constructor
    · rintro rfl
      exact Request.key_inj (hplain r (List.mem_of_getElem? hr))
        (hplain r' (List.mem_of_getElem? hr')) (hdistinct.key_eq hkey hkey')
    · rintro rfl
      exact Option.some.inj (hkey.symm.trans hkey')
  · intro i r a hr ha hnew used
    obtain ⟨hlt, rfl⟩ := List.getElem?_eq_some_iff.mp hr
    obtain ⟨rest, hall⟩ :=
      exists_answers_append_cons v (requests.take i) (requests.drop (i + 1)) requests[i]
    rw [← List.drop_eq_getElem_cons hlt, List.take_append_drop] at hall
    have hlength : (answers v (requests.take i)).length = i := by
      rw [answers, NameTable.length_answerAll, List.length_take, Nat.min_eq_left (Nat.le_of_lt hlt)]
    have hused : used = answers v (requests.take i) := by
      show (answers v requests).take i = _
      rw [hall, List.take_left' hlength]
    have ha' : ((NameTable.answerAll v {} (requests.take i)).2.answer v requests[i]).1 = a := by
      rw [hall, List.getElem?_append_right (Nat.le_of_eq hlength), hlength, Nat.sub_self] at ha
      exact Option.some.inj ha
    rw [hused, ← ha']
    exact answer_of_not_mem v (fun r' hr' => hplain r' (List.mem_of_mem_take hr'))
      (hplain _ (List.getElem_mem hlt)) hnew

/-- Two names that become one word, and the first of them again. -/
theorem answers_eq_iff_and_least_user_names :
    let requests : List Request :=
      [⟨"user-name", .camel, "_"⟩, ⟨"user_name", .camel, "_"⟩, ⟨"user-name", .camel, "_"⟩]
    (∀ r ∈ requests, r.Plain) ∧ answers {} requests = ["userName", "userName1", "userName"] ∧
      GivesWay ["userName"] "userName" "userName" 1 "userName1" := by
  intro requests
  have hplain : ∀ r ∈ requests, r.Plain := by decide
  have hanswers : answers {} requests = ["userName", "userName1", "userName"] := by decide +kernel
  have hword : Request.word {} ⟨"user_name", .camel, "_"⟩ = "userName" := by decide +kernel
  obtain ⟨-, -, hleast⟩ := answers_eq_iff_and_least {} requests hplain
  have hsecond := (hleast 1 ⟨"user_name", .camel, "_"⟩ "userName1" rfl (by rw [hanswers]; rfl)
    (by decide)).1
  rw [hanswers, hword] at hsecond
  exact ⟨hplain, hanswers, hsecond⟩

end DtoForge.Naming
