import Mathlib.Order.Bounds.Basic
import TypedQuery.Proofs.Columnar.RowView
import TypedQuery.Text.Search

/-!
# Positions of characters

A text is searched by its bytes, and positions count characters. That fits together
because UTF-8 is in step with itself: the first byte of a character is like no other byte,
so what is found among the bytes begins with a character of the text
(`exists_byteOffset`), and there are as many first bytes in front of it as characters
(`characterCount_bytes`). So searching the bytes is searching the characters, whatever
number of bytes they have (`find_eq_indexOf?`).
-/

namespace TypedQuery

namespace Text

/-! ## First positions -/

section

variable {α : Type} [BEq α] {needle cs : List α} {i : Nat}

theorem indexOf?_nil (cs : List α) : indexOf? [] cs = some 0 := by cases cs <;> rfl

variable [LawfulBEq α]

/-- The position that is found, if one is, is the first of those at which what is left
begins with the text. -/
theorem indexOf?_spec (needle cs : List α) :
    match indexOf? needle cs with
    | some i => i ≤ cs.length ∧ needle <+: cs.drop i ∧ ∀ j < i, ¬ needle <+: cs.drop j
    | none => ∀ j ≤ cs.length, ¬ needle <+: cs.drop j := by
  induction cs with
  | nil => cases needle <;> simp [indexOf?]
  | cons c rest ih =>
      rw [indexOf?]
      by_cases hhere : needle <+: c :: rest
      · rw [if_pos (List.isPrefixOf_iff_prefix.2 hhere)]
        exact ⟨Nat.zero_le _, hhere, nofun⟩
      · rw [if_neg (mt List.isPrefixOf_iff_prefix.1 hhere)]
        cases hrest : indexOf? needle rest with
        | none =>
            rw [hrest] at ih
            intro j hj
            cases j with
            | zero => exact hhere
            | succ j => exact ih j (Nat.le_of_succ_le_succ hj)
        | some i =>
            rw [hrest] at ih
            refine ⟨Nat.succ_le_succ ih.1, ih.2.1, fun j hj => ?_⟩
            cases j with
            | zero => exact hhere
            | succ j => exact ih.2.2 j (Nat.lt_of_succ_lt_succ hj)

theorem indexOf?_eq_some_iff :
    indexOf? needle cs = some i
      ↔ i ≤ cs.length ∧ needle <+: cs.drop i ∧ ∀ j < i, ¬ needle <+: cs.drop j := by
  have hspec := indexOf?_spec needle cs
  cases h : indexOf? needle cs with
  | none =>
      rw [h] at hspec
      exact iff_of_false nofun fun hi => hspec i hi.1 hi.2.1
  | some k =>
      rw [h] at hspec
      refine ⟨fun heq => Option.some.inj heq ▸ hspec, fun hi => congrArg some ?_⟩
      rcases Nat.lt_trichotomy k i with hlt | heq | hlt
      · exact absurd hspec.2.1 (hi.2.2 k hlt)
      · exact heq
      · exact absurd hi.2.1 (hspec.2.2 i hlt)

theorem indexOf?_eq_none_iff :
    indexOf? needle cs = none ↔ ∀ j ≤ cs.length, ¬ needle <+: cs.drop j := by
  have hspec := indexOf?_spec needle cs
  cases h : indexOf? needle cs with
  | none =>
      rw [h] at hspec
      exact iff_of_true rfl hspec
  | some k =>
      rw [h] at hspec
      exact iff_of_false nofun fun hnone => hnone k hspec.1 hspec.2.1

end

/-! ## Characters and their bytes -/

variable {needle cs : List Char} {i k start : Nat}

@[simp] theorem bytes_nil : bytes [] = [] := rfl

theorem bytes_cons (c : Char) (cs : List Char) :
    bytes (c :: cs) = String.utf8EncodeChar c ++ bytes cs :=
  List.flatMap_cons

@[simp] theorem bytes_append (a b : List Char) : bytes (a ++ b) = bytes a ++ bytes b :=
  List.flatMap_append

/-- The byte at which the character with a number begins. -/
def byteOffset (cs : List Char) (k : Nat) : Nat := (bytes (cs.take k)).length

@[simp] theorem byteOffset_zero (cs : List Char) : byteOffset cs 0 = 0 := rfl

theorem byteOffset_cons (c : Char) (cs : List Char) (k : Nat) :
    byteOffset (c :: cs) (k + 1) = c.utf8Size + byteOffset cs k := by
  simp [byteOffset, bytes_cons]

theorem byteOffset_lt (hlt : i < k) (hk : k ≤ cs.length) :
    byteOffset cs i < byteOffset cs k := by
  induction cs generalizing i k with
  | nil => exact absurd (Nat.lt_of_lt_of_le hlt hk) (Nat.not_lt_zero i)
  | cons c rest ih =>
      obtain ⟨k, rfl⟩ : ∃ m, k = m + 1 := ⟨k - 1, by omega⟩
      rw [byteOffset_cons]
      cases i with
      | zero => exact Nat.add_pos_left c.utf8Size_pos _
      | succ i =>
          rw [byteOffset_cons]
          exact Nat.add_lt_add_left
            (ih (Nat.lt_of_succ_lt_succ hlt) (Nat.le_of_succ_le_succ hk)) _

theorem drop_byteOffset (cs : List Char) (k : Nat) :
    (bytes cs).drop (byteOffset cs k) = bytes (cs.drop k) := by
  have hsplit : bytes cs = bytes (cs.take k) ++ bytes (cs.drop k) := by
    rw [← bytes_append, List.take_append_drop]
  rw [hsplit, byteOffset, List.drop_left]

theorem take_byteOffset (cs : List Char) (k : Nat) :
    (bytes cs).take (byteOffset cs k) = bytes (cs.take k) := by
  have hsplit : bytes cs = bytes (cs.take k) ++ bytes (cs.drop k) := by
    rw [← bytes_append, List.take_append_drop]
  rw [hsplit, byteOffset, List.take_left]

/-- Of the bytes of a character, the first one begins it. -/
theorem characterCount_encode (c : Char) : characterCount (String.utf8EncodeChar c) = 1 := by
  obtain ⟨b, rest, hbytes⟩ :=
    List.exists_cons_of_ne_nil (String.utf8EncodeChar_ne_nil (c := c))
  have hfirst : ∀ (j : Nat) (hj : j < (b :: rest).length),
      (b :: rest)[j].IsUTF8FirstByte ↔ j = 0 := by
    rw [← hbytes]
    exact fun j hj => UInt8.isUTF8FirstByte_getElem_utf8EncodeChar
  have hrest : ∀ b' ∈ rest, ¬ b'.IsUTF8FirstByte := fun b' hb' => by
    obtain ⟨j, hj, rfl⟩ := List.mem_iff_getElem.1 hb'
    exact fun h => Nat.succ_ne_zero j ((hfirst (j + 1) (Nat.succ_lt_succ hj)).1 h)
  have hb : b.IsUTF8FirstByte := (hfirst 0 (Nat.succ_pos _)).2 rfl
  have hnone : rest.countP (fun b => decide b.IsUTF8FirstByte) = 0 :=
    List.countP_eq_zero.2 fun b' hb' => mt of_decide_eq_true (hrest b' hb')
  rw [hbytes, characterCount, List.countP_cons, hnone, if_pos (decide_eq_true hb)]

theorem characterCount_bytes (cs : List Char) : characterCount (bytes cs) = cs.length := by
  induction cs with
  | nil => rfl
  | cons c rest ih =>
      have hone := characterCount_encode c
      unfold characterCount at hone ih ⊢
      rw [bytes_cons, List.countP_append, hone, ih, List.length_cons, Nat.add_comm]

/-! ## Bytes that begin characters -/

theorem bytes_isPrefix_iff {a b : List Char} : bytes a <+: bytes b ↔ a <+: b := by
  constructor
  · rintro ⟨rest, hrest⟩
    refine List.isPrefix_of_utf8Encode_append_eq_utf8Encode rest.toByteArray ?_
    show (bytes a).toByteArray ++ rest.toByteArray = (bytes b).toByteArray
    rw [← hrest, List.toByteArray_append]
  · rintro ⟨rest, rfl⟩
    exact ⟨bytes rest, (bytes_append a rest).symm⟩

/-- Where the bytes of a text are found among those of another one, a character begins. -/
theorem exists_byteOffset (hne : needle ≠ []) (h : bytes needle <+: (bytes cs).drop i) :
    ∃ k ≤ cs.length, i = byteOffset cs k := by
  obtain ⟨d, more, rfl⟩ := List.exists_cons_of_ne_nil hne
  induction cs generalizing i with
  | nil =>
      rw [bytes_nil, List.drop_nil, List.prefix_nil, bytes_cons] at h
      exact absurd (List.append_eq_nil_iff.1 h).1 String.utf8EncodeChar_ne_nil
  | cons c rest ih =>
      rcases Nat.lt_or_ge i c.utf8Size with hlt | hge
      · -- Inside a character only its first byte is like the first byte of another one.
        have hi : i < (String.utf8EncodeChar c).length :=
          (String.length_utf8EncodeChar c).symm ▸ hlt
        have hd : 0 < (String.utf8EncodeChar d).length :=
          (String.length_utf8EncodeChar d).symm ▸ d.utf8Size_pos
        obtain ⟨tail, htail⟩ := h
        have hsame := congrArg (·[0]?) htail
        simp only [bytes_cons, List.append_assoc, List.getElem?_drop, Nat.add_zero,
          List.getElem?_append_left hd, List.getElem?_append_left hi,
          List.getElem?_eq_getElem hd, List.getElem?_eq_getElem hi,
          Option.some.injEq] at hsame
        have hfirst : (String.utf8EncodeChar c)[i].IsUTF8FirstByte :=
          hsame ▸ UInt8.isUTF8FirstByte_getElem_utf8EncodeChar.2 rfl
        exact ⟨0, Nat.zero_le _, UInt8.isUTF8FirstByte_getElem_utf8EncodeChar.1 hfirst⟩
      · obtain ⟨j, rfl⟩ := Nat.exists_eq_add_of_le hge
        have hdrop : (bytes (c :: rest)).drop (c.utf8Size + j) = (bytes rest).drop j := by
          rw [bytes_cons, ← List.drop_drop, ← String.length_utf8EncodeChar, List.drop_left]
        obtain ⟨k, hk, rfl⟩ := ih (hdrop ▸ h)
        exact ⟨k + 1, Nat.succ_le_succ hk, (byteOffset_cons c rest k).symm⟩

theorem prefix_drop_byteOffset_iff : bytes needle <+: (bytes cs).drop (byteOffset cs k)
    ↔ needle <+: cs.drop k := by
  rw [drop_byteOffset, bytes_isPrefix_iff]

/-- The bytes of a text are found first where the text is. -/
theorem indexOf?_bytes (needle cs : List Char) :
    indexOf? (bytes needle) (bytes cs) = (indexOf? needle cs).map (byteOffset cs) := by
  rcases eq_or_ne needle [] with rfl | hne
  · rw [bytes_nil, indexOf?_nil, indexOf?_nil, Option.map_some, byteOffset_zero]
  · cases hfound : indexOf? needle cs with
    | none =>
        rw [Option.map_none, indexOf?_eq_none_iff]
        intro j _ hj
        obtain ⟨k, hk, rfl⟩ := exists_byteOffset hne hj
        exact indexOf?_eq_none_iff.1 hfound k hk (prefix_drop_byteOffset_iff.1 hj)
    | some i =>
        obtain ⟨hi, hprefix, hbefore⟩ := indexOf?_eq_some_iff.1 hfound
        rw [Option.map_some, indexOf?_eq_some_iff]
        refine ⟨?_, prefix_drop_byteOffset_iff.2 hprefix, fun j hlt hj => ?_⟩
        · rw [byteOffset, ← take_byteOffset]
          exact List.length_take_le' _ _
        · obtain ⟨k, hk, rfl⟩ := exists_byteOffset hne hj
          refine hbefore k (Nat.lt_of_not_le fun hle => ?_) (prefix_drop_byteOffset_iff.1 hj)
          rcases Nat.eq_or_lt_of_le hle with rfl | hik
          · exact Nat.lt_irrefl _ hlt
          · exact Nat.lt_asymm hlt (byteOffset_lt hik hk)

/-! ## Starts -/

theorem getElem?_offsetsFrom (first : Nat) (cs : List Char) (k : Nat) :
    (offsetsFrom first cs)[k]? = if k < cs.length then
      some (first + byteOffset cs k) else none := by
  induction cs generalizing first k with
  | nil => simp [offsetsFrom]
  | cons c rest ih =>
      cases k with
      | zero => simp [offsetsFrom]
      | succ k => simp [offsetsFrom, ih, byteOffset_cons, Nat.add_assoc]

theorem offset?_eq (cs : List Char) (start : Nat) :
    offset? cs start = if start ≤ cs.length then some (byteOffset cs start) else none := by
  rw [offset?, getElem?_offsetsFrom]
  rcases Nat.lt_trichotomy start cs.length with hlt | rfl | hlt
  · simp only [if_pos hlt, if_pos hlt.le, Nat.zero_add]
  · simp [byteOffset]
  · simp only [if_neg hlt.asymm, if_neg hlt.ne, if_neg hlt.not_ge]

/-- Looking among the bytes and counting characters again is looking among the characters. -/
theorem find_eq_indexOf? (needle : List Char) (start : Nat) (cs : List Char) :
    find needle start cs = if cs.length < start then -1 else
      ((indexOf? needle (cs.drop start)).map fun i => Int.ofNat (start + i)).getD (-1) := by
  rw [find, offset?_eq]
  split_ifs with hstart hbeyond hbeyond
  · exact absurd hbeyond hstart.not_gt
  · dsimp only
    rw [drop_byteOffset, indexOf?_bytes]
    cases hfound : indexOf? needle (cs.drop start) with
    | none => rfl
    | some i =>
        have hi := (indexOf?_eq_some_iff.1 hfound).1
        show (start : Int) + characterCount
          ((bytes (cs.drop start)).take (byteOffset (cs.drop start) i)) = _
        rw [take_byteOffset, characterCount_bytes, List.length_take_of_le hi]
        rfl
  · rfl
  · exact absurd (Nat.lt_of_not_le hstart) hbeyond

/-! ## Occurrences -/

/-- The text occurs in another one, where so many characters are in front of it. -/
def OccursAt (needle cs : List Char) (p : Nat) : Prop :=
  ∃ before after, cs = before ++ needle ++ after ∧ before.length = p

theorem occursAt_iff {p : Nat} :
    OccursAt needle cs p ↔ p ≤ cs.length ∧ needle <+: cs.drop p := by
  constructor
  · rintro ⟨before, after, rfl, rfl⟩
    rw [List.append_assoc, List.drop_left]
    exact ⟨by simp, List.prefix_append needle after⟩
  · rintro ⟨hp, after, hafter⟩
    exact ⟨cs.take p, after, by rw [List.append_assoc, hafter, List.take_append_drop],
      List.length_take_of_le hp⟩

/-- The search finds the least position at or after the start at which the text occurs, and
-1 exactly if there is none. -/
theorem find_spec (needle : List Char) (start : Nat) (cs : List Char) :
    (∃ p : Nat, find needle start cs = p ∧ IsLeast {p | start ≤ p ∧ OccursAt needle cs p} p)
      ∨ find needle start cs = -1 ∧ ∀ p ≥ start, ¬ OccursAt needle cs p := by
  rw [find_eq_indexOf?]
  split_ifs with hbeyond
  · refine .inr ⟨rfl, fun p hp hoccurs => ?_⟩
    have hle := (occursAt_iff.1 hoccurs).1
    omega
  · have hrest {p : Nat} (hp : start ≤ p) (hoccurs : OccursAt needle cs p) :
        p - start ≤ (cs.drop start).length
            ∧ needle <+: (cs.drop start).drop (p - start) := by
      obtain ⟨hle, hprefix⟩ := occursAt_iff.1 hoccurs
      rw [List.length_drop, List.drop_drop, Nat.add_sub_cancel' hp]
      exact ⟨Nat.sub_le_sub_right hle _, hprefix⟩
    cases hfound : indexOf? needle (cs.drop start) with
    | none =>
        refine .inr ⟨rfl, fun p hp hoccurs => ?_⟩
        obtain ⟨hle, hprefix⟩ := hrest hp hoccurs
        exact indexOf?_eq_none_iff.1 hfound _ hle hprefix
    | some i =>
        obtain ⟨hi, hprefix, hbefore⟩ := indexOf?_eq_some_iff.1 hfound
        rw [List.length_drop] at hi
        rw [List.drop_drop] at hprefix
        refine .inl ⟨start + i, rfl,
          ⟨Nat.le_add_right _ _, occursAt_iff.2 ⟨by omega, hprefix⟩⟩,
          fun p ⟨hp, hoccurs⟩ => ?_⟩
        by_contra hlt
        exact hbefore (p - start) (by omega) (hrest hp hoccurs).2

theorem find_eq_iff {p : Nat} :
    find needle start cs = p ↔ IsLeast {p | start ≤ p ∧ OccursAt needle cs p} p := by
  rcases find_spec needle start cs with ⟨q, hq, hleast⟩ | ⟨hnone, hall⟩
  · rw [hq, Int.natCast_inj]
    exact ⟨fun h => h ▸ hleast, hleast.unique⟩
  · rw [hnone]
    exact iff_of_false (by omega) fun hp => hall p hp.1.1 hp.1.2

theorem find_eq_neg_one_iff :
    find needle start cs = -1 ↔ ∀ p ≥ start, ¬ OccursAt needle cs p := by
  rcases find_spec needle start cs with ⟨q, hq, hleast⟩ | ⟨hnone, hall⟩
  · rw [hq]
    exact iff_of_false (by omega) fun hall => hall q hleast.1.1 hleast.1.2
  · exact iff_of_true hnone hall

/-- What is written with other characters occurs at the same positions. -/
theorem occursAt_map_iff {f : Char → Char} (hf : Function.Injective f) {p : Nat} :
    OccursAt (needle.map f) (cs.map f) p ↔ OccursAt needle cs p := by
  rw [occursAt_iff, occursAt_iff, List.length_map, ← List.map_drop,
    List.prefix_map_iff_of_injective hf]

end Text

/-- The engine finds the least position, counted in characters, at or after the start at
which the text occurs, and -1 exactly if there is none, as when the start is beyond the
end. Nothing is found everywhere up to the end. The positions stay the same when the
characters are exchanged for others, with however many bytes. -/
theorem character_searches (needle hay : String) (start : Nat) :
    (∀ c : Column, c.OfTexts → ∃ out, (Function.find needle start).apply [c] = .ok out
        ∧ ∀ i, c.row i = .text hay →
          out.row i = .int (Text.find needle.toList start hay.toList))
      ∧ (∀ p : Nat, Text.find needle.toList start hay.toList = p
        ↔ IsLeast {p | start ≤ p ∧ Text.OccursAt needle.toList hay.toList p} p)
      ∧ (Text.find needle.toList start hay.toList = -1
        ↔ ∀ p ≥ start, ¬ Text.OccursAt needle.toList hay.toList p)
      ∧ (hay.length < start → Text.find needle.toList start hay.toList = -1)
      ∧ Text.find [] start hay.toList = (if start ≤ hay.length then (start : Int) else -1)
      ∧ ∀ f : Char → Char, Function.Injective f →
        Text.find (needle.toList.map f) start (hay.toList.map f)
          = Text.find needle.toList start hay.toList := by
  have hleast (p : Nat) : Text.find needle.toList start hay.toList = p
      ↔ IsLeast {p | start ≤ p ∧ Text.OccursAt needle.toList hay.toList p} p :=
        Text.find_eq_iff
  refine ⟨fun c hc => ?_, hleast, Text.find_eq_neg_one_iff, fun hbeyond => ?_,
    ?_, fun f hf => ?_⟩
  · have happly : (Function.find needle start).apply [c]
      = .ok ⟨.int64, c.cells.map (Column.mappedText fun text =>
        some (.int (Text.find needle.toList start text)))⟩ :=
      Column.mapTexts_eq hc .int64 fun text =>
        some (.int (Text.find needle.toList start text))
    refine ⟨_, happly, fun i hrow => ?_⟩
    rw [Column.row_mappedText, hrow]
    rfl
  · rw [Text.find_eq_indexOf?, String.length_toList, if_pos hbeyond]
  · rw [Text.find_eq_indexOf?, Text.indexOf?_nil, String.length_toList]
    split_ifs with hbeyond hstart hstart
    · exact absurd hstart hbeyond.not_ge
    · rfl
    · rfl
    · exact absurd (Nat.lt_of_not_le hstart) hbeyond
  · have hsame {p : Nat} : Text.OccursAt (needle.toList.map f) (hay.toList.map f) p
        ↔ Text.OccursAt needle.toList hay.toList p := Text.occursAt_map_iff hf
    rcases Text.find_spec needle.toList start hay.toList with ⟨p, hp, hleast⟩ | ⟨hp, hnone⟩
    · rw [hp, Text.find_eq_iff]
      simpa only [hsame] using hleast
    · rw [hp, Text.find_eq_neg_one_iff]
      simpa only [hsame] using hnone

end TypedQuery
