import DtoForge.Proofs.Naming.Identifier

/-! # Forms — which identifiers are given out

An answer is a form of the word that is asked for, and it is the first one that was not given before.
So the forms that a list of requests uses up can be told from the order of the words alone: a form is
given exactly if its word is asked for when all smaller forms are gone (`mem_answers_iff`). A form
that does not end in a digit is the word itself, and is given exactly if it is asked for. -/

namespace DtoForge.Naming

variable {v : Vocabulary} {requests before after : List Request} {r : Request} {a : String}

/-- Only forms that have a number end in a digit. -/
theorem eq_zero_of_last_numbered {name : String} {n : Nat}
    (hlast : (numbered name n).toList.getLast?.any Char.isDigit = false) : n = 0 := by
  by_contra hn
  rw [numbered, if_neg hn, last_isDigit_append_toString] at hlast
  cases hlast

/-- What is given to the first of several requests is given to all of them. -/
theorem prefix_answers_append (v : Vocabulary) (before after : List Request) :
    answers v before <+: answers v (before ++ after) := by
  rw [answers, answers, NameTable.answerAll_append]
  exact List.prefix_append _ _

/-- A request that was not made before gets the first form of its word that was not given before. -/
theorem exists_form_append_cons (hplain : ∀ r' ∈ before, r'.Plain) (hr : r.Plain)
    (hnew : r ∉ before) (after : List Request) :
    ∃ n, numbered (r.word v) n ∈ answers v (before ++ r :: after) ∧
      numbered (r.word v) n ∉ answers v before ∧
      ∀ m < n, numbered (r.word v) m ∈ answers v before := by
  obtain ⟨-, n, ha, hfree, hused⟩ := answer_of_not_mem v hplain hr hnew
  obtain ⟨rest, hanswers⟩ := exists_answers_append_cons v before after r
  rw [ha] at hfree
  refine ⟨n, ?_, hfree, hused⟩
  rw [hanswers, ha]
  exact List.mem_append_right _ List.mem_cons_self

/-- An answer is a form of a word that is asked for when all smaller forms are gone. -/
theorem exists_form_of_mem_answers (hplain : ∀ r ∈ requests, r.Plain) (hnodup : requests.Nodup)
    (ha : a ∈ answers v requests) :
    ∃ before r after n, requests = before ++ r :: after ∧ a = numbered (r.word v) n ∧
      ∀ m < n, numbered (r.word v) m ∈ answers v before := by
  induction requests using List.reverseRecOn with
  | nil => cases ha
  | append_singleton before r ih =>
      rw [← List.concat_eq_append, List.nodup_concat] at hnodup
      obtain ⟨hnew, hnodup⟩ := hnodup
      have hplain' : ∀ r' ∈ before, r'.Plain := fun r' hr' =>
        hplain r' (List.mem_append_left _ hr')
      have hlast : answers v (before ++ [r]) =
          answers v before ++ [((NameTable.answerAll v {} before).2.answer v r).1] := by
        rw [answers, NameTable.answerAll_append]
        rfl
      rw [hlast, List.mem_append, List.mem_singleton] at ha
      rcases ha with ha | ha
      · obtain ⟨front, r', behind, n, rfl, hform, hused⟩ := ih hplain' hnodup ha
        exact ⟨front, r', behind ++ [r], n, by simp, hform, hused⟩
      · obtain ⟨-, n, hn, -, hused⟩ := answer_of_not_mem v hplain'
          (hplain r (List.mem_append_right _ List.mem_cons_self)) hnew
        exact ⟨before, r, [], n, rfl, ha.trans hn, hused⟩

/-- A form of a word is given when the word is asked for and all smaller forms are gone. -/
theorem mem_answers_of_forms (hplain : ∀ r' ∈ before ++ r :: after, r'.Plain)
    (hnodup : (before ++ r :: after).Nodup) {n : Nat}
    (hused : ∀ m < n, numbered (r.word v) m ∈ answers v before) :
    numbered (r.word v) n ∈ answers v (before ++ r :: after) := by
  have hnew : r ∉ before := fun hmem =>
    List.disjoint_of_nodup_append hnodup hmem List.mem_cons_self
  obtain ⟨k, hk, hfree, hsmaller⟩ := exists_form_append_cons (v := v)
    (fun r' hr' => hplain r' (List.mem_append_left _ hr'))
    (hplain r (List.mem_append_right _ List.mem_cons_self)) hnew after
  rcases Nat.lt_trichotomy n k with hlt | rfl | hgt
  · exact (prefix_answers_append v before _).subset (hsmaller n hlt)
  · exact hk
  · exact absurd (hused k hgt) hfree

/-- **Which identifiers are given.** A form of a word is given exactly if the word is asked for when
all smaller forms are gone. -/
theorem mem_answers_iff (hplain : ∀ r ∈ requests, r.Plain) (hnodup : requests.Nodup) :
    a ∈ answers v requests ↔
      ∃ before r after n, requests = before ++ r :: after ∧ a = numbered (r.word v) n ∧
        ∀ m < n, numbered (r.word v) m ∈ answers v before := by
  refine ⟨exists_form_of_mem_answers hplain hnodup, ?_⟩
  rintro ⟨before, r, after, n, rfl, rfl, hused⟩
  exact mem_answers_of_forms hplain hnodup hused

/-- A name that does not end in a digit is given exactly if it is the word of a request. -/
theorem mem_answers_iff_of_last (hplain : ∀ r ∈ requests, r.Plain) (hnodup : requests.Nodup)
    (hlast : a.toList.getLast?.any Char.isDigit = false) :
    a ∈ answers v requests ↔ ∃ r ∈ requests, r.word v = a := by
  rw [mem_answers_iff hplain hnodup]
  constructor
  · rintro ⟨before, r, after, n, rfl, rfl, -⟩
    obtain rfl := eq_zero_of_last_numbered hlast
    exact ⟨r, List.mem_append_right _ List.mem_cons_self, rfl⟩
  · rintro ⟨r, hr, rfl⟩
    obtain ⟨before, after, rfl⟩ := List.append_of_mem hr
    exact ⟨before, r, after, 0, rfl, rfl, nofun⟩

end DtoForge.Naming
