import Mathlib.Data.List.TakeWhile
import Mathlib.Tactic.SplitIfs
import DtoForge.Text.Utf8

/-! # UTF-8 — what is decoded was encoded

The decoder takes bytes apart sequence by sequence. `Sequence` is the grammar of the sequences it
accepts, and the codes of characters are just these (`Sequence.encode`, `exists_sequence`). So bytes
are decoded exactly if they are the codes of some characters, one after the other
(`decodeUtf8_eq_ok_iff`), and what is refused is the code of no text. -/

namespace DtoForge.Text

/-! ## Bytes as numbers -/

theorem sequenceLength_eq (b : UInt8) : sequenceLength b =
    if b.toNat < 0x80 then 1 else if b.toNat < 0xc2 then 0 else if b.toNat < 0xe0 then 2
    else if b.toNat < 0xf0 then 3 else if b.toNat < 0xf5 then 4 else 0 := by
  simp [sequenceLength, UInt8.lt_iff_toNat_lt]

theorem maySecond_iff {first b : UInt8} : maySecond first b = true ↔
    (if first.toNat = 0xe0 then 0xa0 else if first.toNat = 0xf0 then 0x90 else 0x80) ≤ b.toNat ∧
      b.toNat ≤ if first.toNat = 0xed then 0x9f else if first.toNat = 0xf4 then 0x8f else 0xbf := by
  simp [maySecond, UInt8.le_iff_toNat_le, ← UInt8.toNat_inj, apply_ite UInt8.toNat]

theorem mayContinue_iff {b : UInt8} : mayContinue b = true ↔ 0x80 ≤ b.toNat ∧ b.toNat ≤ 0xbf := by
  simp [mayContinue, UInt8.le_iff_toNat_le]

theorem mayContinue_of_maySecond {first b : UInt8} (h : maySecond first b = true) :
    mayContinue b = true := by
  rw [maySecond_iff] at h
  rw [mayContinue_iff]
  split_ifs at h <;> omega

theorem ofNat_eq_iff {n : Nat} {b : UInt8} : UInt8.ofNat n = b ↔ n % 256 = b.toNat := by
  rw [← UInt8.toNat_inj, UInt8.toNat_ofNat']

/-! ## Sequences -/

/-- A byte, the bytes that continue its sequence, and the number of the character they give. -/
inductive Sequence : UInt8 → List UInt8 → Nat → Prop
  | one {b : UInt8} {n : Nat} (hb : b.toNat < 0x80) (hn : n = b.toNat) : Sequence b [] n
  | two {b c : UInt8} {n : Nat} (hb : 0xc2 ≤ b.toNat ∧ b.toNat < 0xe0) (hc : maySecond b c = true)
      (hn : n = b.toNat % 0x20 * 64 + c.toNat % 64) : Sequence b [c] n
  | three {b c d : UInt8} {n : Nat} (hb : 0xe0 ≤ b.toNat ∧ b.toNat < 0xf0)
      (hc : maySecond b c = true) (hd : mayContinue d = true)
      (hn : n = (b.toNat % 0x10 * 64 + c.toNat % 64) * 64 + d.toNat % 64) : Sequence b [c, d] n
  | four {b c d e : UInt8} {n : Nat} (hb : 0xf0 ≤ b.toNat ∧ b.toNat < 0xf5)
      (hc : maySecond b c = true) (hd : mayContinue d = true) (he : mayContinue e = true)
      (hn : n = ((b.toNat % 0x08 * 64 + c.toNat % 64) * 64 + d.toNat % 64) * 64 + e.toNat % 64) :
      Sequence b [c, d, e] n

namespace Sequence

variable {b : UInt8} {tail : List UInt8} {n : Nat}

/-- The second byte keeps the halves of surrogate pairs out, and what lies beyond the code space. -/
theorem isValidChar (h : Sequence b tail n) : n.isValidChar := by
  unfold Nat.isValidChar
  cases h with
  | one hb hn => omega
  | two hb hc hn => omega
  | three hb hc hd hn =>
      rw [maySecond_iff] at hc
      rw [mayContinue_iff] at hd
      split_ifs at hc <;> omega
  | four hb hc hd he hn =>
      rw [maySecond_iff] at hc
      rw [mayContinue_iff] at hd he
      split_ifs at hc <;> omega

/-- A sequence is the code of the character that it gives. -/
theorem encode (h : Sequence b tail n) : String.utf8EncodeChar (Char.ofNat n) = b :: tail := by
  have hn : (Char.ofNat n).val.toNat = n := by
    rw [Char.ofNat, dif_pos h.isValidChar]
    rfl
  simp only [String.utf8EncodeChar, hn]
  cases h with
  | one hb hn => rw [if_pos (by omega), hn, UInt8.ofNat_toNat]
  | two hb hc hn =>
      have hc := mayContinue_iff.mp (mayContinue_of_maySecond hc)
      rw [if_neg (by omega), if_pos (by omega)]
      simp only [List.cons.injEq, ofNat_eq_iff, and_true]
      omega
  | three hb hc hd hn =>
      -- only the second byte tells that a shorter code would not do
      have hlong : 0x7ff < n := by
        rw [maySecond_iff] at hc
        split_ifs at hc <;> omega
      have hc := mayContinue_iff.mp (mayContinue_of_maySecond hc)
      rw [mayContinue_iff] at hd
      rw [if_neg (by omega), if_neg (by omega), if_pos (by omega)]
      simp only [List.cons.injEq, ofNat_eq_iff, and_true]
      omega
  | four hb hc hd he hn =>
      have hlong : 0xffff < n := by
        rw [maySecond_iff] at hc
        split_ifs at hc <;> omega
      have hc := mayContinue_iff.mp (mayContinue_of_maySecond hc)
      rw [mayContinue_iff] at hd he
      rw [if_neg (by omega), if_neg (by omega), if_neg (by omega)]
      simp only [List.cons.injEq, ofNat_eq_iff, and_true]
      omega

theorem length (h : Sequence b tail n) : sequenceLength b = tail.length + 1 := by
  rw [sequenceLength_eq]
  cases h <;> simp only [List.length_cons, List.length_nil] <;> split_ifs <;> omega

theorem char (h : Sequence b tail n) : charOfSequence b tail = Char.ofNat n := by
  cases h <;> simp [charOfSequence, *]

theorem continued (h : Sequence b tail n) (rest : List UInt8) :
    continued b tail.length (tail ++ rest) = tail.length := by
  cases h with
  | one hb hn => cases rest <;> simp [Text.continued]
  | two hb hc hn => simp [Text.continued, hc]
  | three hb hc hd hn => simp [Text.continued, hc, hd]
  | four hb hc hd he hn => simp [Text.continued, hc, hd, he]

end Sequence

/-- The code of a character is a sequence that gives its number. -/
theorem exists_sequence (c : Char) :
    ∃ b tail, String.utf8EncodeChar c = b :: tail ∧ Sequence b tail c.toNat := by
  have hc : c.toNat < 0xd800 ∨ 0xdfff < c.toNat ∧ c.toNat < 0x110000 := c.valid
  simp only [String.utf8EncodeChar]
  rw [show c.val.toNat = c.toNat from rfl]
  generalize c.toNat = n at hc
  split_ifs with hone htwo hthree
  · refine ⟨_, _, rfl, .one ?_ ?_⟩ <;> rw [UInt8.toNat_ofNat'] <;> omega
  · refine ⟨_, _, rfl, .two ?_ ?_ ?_⟩
    · rw [UInt8.toNat_ofNat']
      omega
    · rw [maySecond_iff]
      simp only [UInt8.toNat_ofNat']
      split_ifs <;> omega
    · simp only [UInt8.toNat_ofNat']
      omega
  · refine ⟨_, _, rfl, .three ?_ ?_ ?_ ?_⟩
    · rw [UInt8.toNat_ofNat']
      omega
    · rw [maySecond_iff]
      simp only [UInt8.toNat_ofNat']
      split_ifs <;> omega
    · rw [mayContinue_iff, UInt8.toNat_ofNat']
      omega
    · simp only [UInt8.toNat_ofNat']
      omega
  · refine ⟨_, _, rfl, .four ?_ ?_ ?_ ?_ ?_⟩
    · rw [UInt8.toNat_ofNat']
      omega
    · rw [maySecond_iff]
      simp only [UInt8.toNat_ofNat']
      split_ifs <;> omega
    · rw [mayContinue_iff, UInt8.toNat_ofNat']
      omega
    · rw [mayContinue_iff, UInt8.toNat_ofNat']
      omega
    · simp only [UInt8.toNat_ofNat']
      omega

/-- When all the bytes that are wanted continue a sequence, the first of them may stand second and
the others may stand behind it. -/
theorem forall_of_continued {b : UInt8} {bs : List UInt8} {size : Nat}
    (h : continued b (size + 1) bs = size + 1) :
    ∃ c rest, bs = c :: rest ∧ maySecond b c = true ∧ size ≤ rest.length ∧
      ∀ d ∈ rest.take size, mayContinue d = true := by
  cases bs with
  | nil => cases h
  | cons c rest =>
      rw [continued, if_neg (Nat.succ_ne_zero size), Nat.add_sub_cancel] at h
      split at h
      next hc =>
        have hlength : ((rest.take size).takeWhile mayContinue).length = size := by omega
        have htaken : (rest.take size).takeWhile mayContinue = rest.take size :=
          (List.takeWhile_prefix _).eq_of_length_le (by rw [hlength]; exact List.length_take_le ..)
        rw [htaken, List.length_take] at hlength
        exact ⟨c, rest, rfl, hc, by omega, fun d hd => List.mem_takeWhile_imp (htaken ▸ hd)⟩
      next => cases h

/-- What the decoder accepts as a sequence is one. -/
theorem exists_sequence_of_continued {b : UInt8} {bs : List UInt8} {size : Nat}
    (hlength : sequenceLength b = size + 1) (hall : continued b size bs = size) :
    ∃ n, Sequence b (bs.take size) n := by
  have hsize : (size = 0 ∧ b.toNat < 0x80) ∨ (size = 1 ∧ 0xc2 ≤ b.toNat ∧ b.toNat < 0xe0) ∨
      (size = 2 ∧ 0xe0 ≤ b.toNat ∧ b.toNat < 0xf0) ∨
      (size = 3 ∧ 0xf0 ≤ b.toNat ∧ b.toNat < 0xf5) := by
    rw [sequenceLength_eq] at hlength
    split_ifs at hlength <;> omega
  rcases hsize with ⟨rfl, hb⟩ | ⟨rfl, hb⟩ | ⟨rfl, hb⟩ | ⟨rfl, hb⟩
  · exact ⟨_, .one hb rfl⟩
  · obtain ⟨c, rest, rfl, hc, -, -⟩ := forall_of_continued hall
    exact ⟨_, .two hb hc rfl⟩
  · obtain ⟨c, rest, rfl, hc, hcount, hrest⟩ := forall_of_continued hall
    obtain ⟨d, rest, rfl⟩ := List.exists_cons_of_length_pos hcount
    exact ⟨_, .three hb hc (hrest d (by simp)) rfl⟩
  · obtain ⟨c, rest, rfl, hc, hcount, hrest⟩ := forall_of_continued hall
    obtain ⟨d, rest, rfl⟩ := List.exists_cons_of_length_pos (Nat.lt_of_lt_of_le Nat.two_pos hcount)
    obtain ⟨e, rest, rfl⟩ := List.exists_cons_of_length_pos (Nat.le_of_succ_le_succ hcount)
    exact ⟨_, .four hb hc (hrest d (by simp)) (hrest e (by simp)) rfl⟩

/-! ## Texts -/

/-- Bytes that belong to the character before are passed over. -/
theorem decodeFrom_append {skipped : List UInt8} (position : Nat) (rest : List UInt8) :
    decodeFrom position skipped.length (skipped ++ rest) =
      decodeFrom (position + skipped.length) 0 rest := by
  induction skipped generalizing position with
  | nil => rfl
  | cons b skipped ih =>
      rw [List.length_cons, List.cons_append, decodeFrom, ih]
      congr 1
      omega

theorem decodeFrom_encode (cs : List Char) (position : Nat) :
    decodeFrom position 0 (cs.flatMap String.utf8EncodeChar) = .ok cs := by
  induction cs generalizing position with
  | nil => rfl
  | cons c cs ih =>
      obtain ⟨b, tail, hcode, h⟩ := exists_sequence c
      rw [List.flatMap_cons, hcode, List.cons_append, decodeFrom]
      simp only [h.length, h.continued, if_true, decodeFrom_append, ih, List.take_left, h.char,
        Char.ofNat_toNat]
      rfl

/-- Decoded bytes, but for those that are passed over, are the code of the characters they give. -/
theorem drop_eq_of_decodeFrom {bytes : List UInt8} {position skip : Nat} {cs : List Char}
    (h : decodeFrom position skip bytes = .ok cs) :
    bytes.drop skip = cs.flatMap String.utf8EncodeChar := by
  induction bytes generalizing position skip cs with
  | nil =>
      cases h
      exact List.drop_nil
  | cons b bs ih =>
      cases skip with
      | succ skip => exact ih h
      | zero =>
          rw [decodeFrom] at h
          cases hlength : sequenceLength b with
          | zero => simp [hlength] at h
          | succ size =>
              simp only [hlength] at h
              split at h
              next hall =>
                obtain ⟨n, hsequence⟩ := exists_sequence_of_continued hlength hall
                cases hrest : decodeFrom (position + 1) size bs with
                | error e => simp [hrest, Except.map] at h
                | ok cs' =>
                    rw [hrest] at h
                    obtain rfl := Except.ok.inj h
                    rw [List.flatMap_cons, hsequence.char, hsequence.encode, ← ih hrest,
                      List.cons_append, List.take_append_drop]
                    rfl
              next => cases h

/-- **Bytes are decoded exactly if they are the code of a text**, and that text is what they give. -/
theorem decodeUtf8_eq_ok_iff {bytes : List UInt8} {cs : List Char} :
    decodeUtf8 bytes = .ok cs ↔ bytes = cs.flatMap String.utf8EncodeChar := by
  constructor
  · exact drop_eq_of_decodeFrom
  · rintro rfl
    exact decodeFrom_encode cs 0

/-- Bytes that are the code of a text. -/
def IsUtf8 (bytes : List UInt8) : Prop :=
  ∃ cs : List Char, bytes = cs.flatMap String.utf8EncodeChar

theorem exists_decodeUtf8_iff {bytes : List UInt8} :
    (∃ cs, decodeUtf8 bytes = .ok cs) ↔ IsUtf8 bytes :=
  exists_congr fun _ => decodeUtf8_eq_ok_iff

/-! ## Texts as bytes -/

/-- The bytes of an array as a list. -/
theorem toList_byteArray (bytes : ByteArray) : bytes.toList = bytes.data.toList := by
  have hloop : ∀ (rest : Nat) (i : Nat) (done : List UInt8), bytes.size - i = rest →
      ByteArray.toList.loop bytes i done = done.reverse ++ bytes.data.toList.drop i := by
    intro rest
    induction rest with
    | zero =>
        intro i done hi
        have hend : bytes.data.toList.drop i = [] := by
          have hsize : bytes.size = bytes.data.size := rfl
          rw [List.drop_eq_nil_iff, Array.length_toList]
          omega
        rw [ByteArray.toList.loop, if_neg (by omega), hend, List.append_nil]
    | succ rest ih =>
        intro i done hi
        have hlt : i < bytes.data.toList.length := by
          have hsize : bytes.size = bytes.data.size := rfl
          rw [Array.length_toList]
          omega
        have hbyte : bytes.get! i = bytes.data.toList[i] := by
          have hget : bytes.get! i = bytes.data[i]! := rfl
          rw [hget, getElem!_pos bytes.data i hlt, Array.getElem_toList]
        rw [ByteArray.toList.loop, if_pos (by omega), ih _ _ (by omega), hbyte,
          List.drop_eq_getElem_cons hlt]
        simp
  exact hloop _ 0 [] rfl

/-- The bytes of a text are the codes of its characters. -/
theorem toList_toUTF8 (s : String) : s.toUTF8.toList = s.toList.flatMap String.utf8EncodeChar := by
  rw [String.toUTF8, toList_byteArray, ← String.utf8Encode_toList, List.utf8Encode,
    List.data_toByteArray, List.toList_toArray]

/-- A text without returns has only line feeds for line ends. -/
theorem plainLines_of_not_mem {cs : List Char} (h : '\r' ∉ cs) : plainLines cs = cs := by
  induction cs with
  | nil => rfl
  | cons c cs ih =>
      obtain ⟨hc, hcs⟩ := not_or.mp (List.mem_cons.not.mp h)
      rw [plainLines, ih hcs]
      · exact fun _ heq _ => hc heq.symm
      · exact fun heq => hc heq.symm

end DtoForge.Text
