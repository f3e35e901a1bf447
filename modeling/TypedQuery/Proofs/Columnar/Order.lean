import TypedQuery.Proofs.Columnar.Reduced

/-!
# The order of cells

Cells of one type are in a total order, in which two cells are level only if they are
the same data. For lists of plain values this is the dictionary order. Cells of
different types are not in order at all, and so the elements of a list have to be of one
type, too (`Cell.fitsWithin`).
-/

namespace TypedQuery

/-- Types whose cells are in order: a list may not be one of lists. -/
def Physical.isFlat : Physical → Bool
  | .list s => !s.isList
  | _ => true

namespace Cell

/-- Whether a column of the type may have the cell, and a column of the type of its
elements those elements. -/
def fitsWithin (t : Physical) (c : Cell) : Bool :=
  c.fits t &&
    match t, c with
    | .list s, list items => items.all (fits s)
    | _, _ => true

theorem fits_of_fitsWithin {t : Physical} {c : Cell} (h : c.fitsWithin t = true) :
    c.fits t = true :=
  (Bool.and_eq_true_iff.1 h).1

theorem bare_getD (found : Option Cell) :
    (found.getD .null).bare = (found.map bare).getD .null := by
  cases found <;> rfl

variable {s t : Physical} {a b c : Cell} {nullsFirst : Bool}

/-! ## Turning around -/

mutual

theorem order_swap (nullsFirst : Bool) :
    ∀ a b : Cell, order nullsFirst b a = (order nullsFirst a b).swap
  | list as, list bs => by simpa only [order] using orderList_swap nullsFirst as bs
  | bool a, bool b => Std.OrientedOrd.eq_swap
  | int a, int b => Std.OrientedOrd.eq_swap
  | float a, float b => Std.OrientedOrd.eq_swap
  | text a, text b => Std.OrientedOrd.eq_swap
  | bytes a, bytes b => Std.OrientedOrd.eq_swap
  | missing _, b => by cases b <;> cases nullsFirst <;> rfl
  | a, missing _ => by cases a <;> cases nullsFirst <;> rfl
  | bool _, int _ | bool _, float _ | bool _, text _ | bool _, bytes _ | bool _, list _ =>
      rfl
  | int _, bool _ | int _, float _ | int _, text _ | int _, bytes _ | int _, list _ => rfl
  | float _, bool _ | float _, int _ | float _, text _ | float _, bytes _
  | float _, list _ =>
      rfl
  | text _, bool _ | text _, int _ | text _, float _ | text _, bytes _ | text _, list _ =>
      rfl
  | bytes _, bool _ | bytes _, int _ | bytes _, float _ | bytes _, text _
  | bytes _, list _ =>
      rfl
  | list _, bool _ | list _, int _ | list _, float _ | list _, text _ | list _, bytes _ =>
      rfl

theorem orderList_swap (nullsFirst : Bool) :
    ∀ as bs : List Cell, orderList nullsFirst bs as = (orderList nullsFirst as bs).swap
  | [], [] | [], _ :: _ | _ :: _, [] => rfl
  | a :: as, b :: bs => by
      rw [orderList, orderList, order_swap nullsFirst a b, orderList_swap nullsFirst as bs]
      cases order nullsFirst a b <;> rfl

end

/-! ## Plain cells -/

theorem order_trans_plain (hs : s.isList = false) (ha : a.fits s = true)
    (hb : b.fits s = true) (hc : c.fits s = true) (hab : (order nullsFirst a b).isLE = true)
    (hbc : (order nullsFirst b c).isLE = true) :
    (order nullsFirst a c).isLE = true := by
  have hmissing : ∀ {x y z : Cell}, (x.isNull || y.isNull || z.isNull) = true →
      (order nullsFirst x y).isLE = true → (order nullsFirst y z).isLE = true →
        (order nullsFirst x z).isLE = true := by
    intro x y z h
    cases nullsFirst <;> cases x <;> cases y <;> cases z <;> simp [order, isNull] at h ⊢
  by_cases hnull : (a.isNull || b.isNull || c.isNull) = true
  · exact hmissing hnull hab hbc
  · simp only [Bool.not_eq_true, Bool.or_eq_false_iff] at hnull
    obtain ⟨⟨hna, hnb⟩, hnc⟩ := hnull
    cases s <;> cases a <;> cases ha <;> cases hna <;> cases b <;> cases hb <;> cases hnb
      <;> cases c <;> cases hc <;>
      cases hnc <;> first | exact Std.TransOrd.isLE_trans hab hbc | cases hs

/-- Cells of a type that is compared are equal in order if and only if they are the same. -/
theorem order_eq_iff {t : Physical} {a b : Cell} (hlist : t.isList = false)
    (ha : a.fits t = true) (hb : b.fits t = true)
    (hna : a.isNull = false) (hnb : b.isNull = false) :
    order true a b = .eq ↔ a.bare = b.bare := by
  have hint : ∀ m n : Int, order true (int m) (int n) = .eq
      ↔ (int m).bare = (int n).bare := by
    intro m n
    simp [order, bare]
  cases t <;> cases a <;> cases ha <;> cases hna <;> cases b <;> cases hb <;> cases hnb
  · next a b => cases a <;> cases b <;> decide
  · exact hint _ _
  · exact hint _ _
  · simp [order, bare, Double.order, Double.key_inj]
  · simp [order, bare]
  · simp only [order, bare, Std.compare_eq_iff_eq, bytes.injEq]
    exact (List.map_injective_iff.2 fun _ _ h => UInt8.toNat_inj.1 h).eq_iff
  · exact hint _ _
  · exact hint _ _
  · cases hlist

theorem order_eq_plain (hs : s.isList = false) (ha : a.fits s = true)
    (hb : b.fits s = true) :
    order nullsFirst a b = .eq ↔ a.bare = b.bare := by
  cases hna : a.isNull with
  | true =>
      obtain ⟨r, rfl⟩ := missing_of_isNull hna
      cases b <;> cases nullsFirst <;> simp [order, bare, null]
  | false =>
      cases hnb : b.isNull with
      | true =>
          obtain ⟨r, rfl⟩ := missing_of_isNull hnb
          cases a <;> cases nullsFirst <;> simp [order, bare, null, isNull] at hna ⊢
      | false =>
          have hfirst : order nullsFirst a b = order true a b := by
            cases s <;> cases a <;> cases ha <;> cases hna <;> cases b <;> cases hb
              <;> cases hnb <;>
              first | rfl | cases hs
          rw [hfirst, order_eq_iff hs ha hb hna hnb]

theorem transCmp_plain (hs : s.isList = false) (nullsFirst : Bool) :
    Std.TransCmp fun a b : { c : Cell // c.fits s = true } => order nullsFirst a.1 b.1 where
  eq_swap {a b} := order_swap nullsFirst b.1 a.1
  isLE_trans {a b c} hab hbc := order_trans_plain hs a.2 b.2 c.2 hab hbc

/-! ## Lists of plain cells -/

theorem orderList_eq (hs : s.isList = false) :
    ∀ {as bs : List Cell}, (∀ a ∈ as, a.fits s = true) →
    (∀ b ∈ bs, b.fits s = true) →
      (orderList nullsFirst as bs = .eq ↔ bareList as = bareList bs)
  | [], [], _, _ => by simp [orderList]
  | [], _ :: _, _, _ | _ :: _, [], _, _ => by simp [orderList, bareList]
  | a :: as, b :: bs, has, hbs => by
      obtain ⟨ha, has⟩ := List.forall_mem_cons.1 has
      obtain ⟨hb, hbs⟩ := List.forall_mem_cons.1 hbs
      have hhere := @order_eq_plain s a b nullsFirst hs ha hb
      rw [orderList, bareList, bareList, List.cons.injEq, ← hhere, ← orderList_eq hs has hbs]
      cases order nullsFirst a b <;> simp

theorem orderList_trans (hs : s.isList = false) :
    ∀ {as bs cs : List Cell}, (∀ a ∈ as, a.fits s = true) →
    (∀ b ∈ bs, b.fits s = true) → (∀ c ∈ cs, c.fits s = true) →
    (orderList nullsFirst as bs).isLE = true → (orderList nullsFirst bs cs).isLE = true →
    (orderList nullsFirst as cs).isLE = true
  | [], _, [], _, _, _, _, _ | [], _, _ :: _, _, _, _, _, _ => rfl
  | _ :: _, [], _, _, _, _, hab, _ => by cases hab
  | _ :: _, _ :: _, [], _, _, _, _, hbc => by cases hbc
  | a :: as, b :: bs, c :: cs, has, hbs, hcs, hab, hbc => by
      obtain ⟨ha, has⟩ := List.forall_mem_cons.1 has
      obtain ⟨hb, hbs⟩ := List.forall_mem_cons.1 hbs
      obtain ⟨hc, hcs⟩ := List.forall_mem_cons.1 hcs
      have hcmp := transCmp_plain hs nullsFirst
      rw [orderList] at hab hbc ⊢
      cases h : order nullsFirst a b with
      | gt =>
          rw [h] at hab
          cases hab
      | eq =>
          rw [h] at hab
          rw [show order nullsFirst a c = order nullsFirst b c
            from @Std.TransCmp.congr_left _ _ hcmp ⟨a, ha⟩ ⟨b, hb⟩ ⟨c, hc⟩ h]
          cases h' : order nullsFirst b c with
          | lt => rfl
          | eq =>
              rw [h'] at hbc
              exact orderList_trans hs has hbs hcs hab hbc
          | gt =>
              rw [h'] at hbc
              cases hbc
      | lt =>
          have hle : (order nullsFirst b c).isLE = true := by
            cases h' : order nullsFirst b c with
            | gt => rw [h'] at hbc; cases hbc
            | _ => rfl
          rw [show order nullsFirst a c = .lt
            from @Std.TransCmp.lt_of_lt_of_isLE _ _ hcmp ⟨a, ha⟩ ⟨b, hb⟩ ⟨c, hc⟩ h hle]
          rfl

/-! ## Cells of a type -/

theorem order_trans (ht : t.isFlat = true) (ha : a.fitsWithin t = true)
    (hb : b.fitsWithin t = true) (hc : c.fitsWithin t = true)
    (hab : (order nullsFirst a b).isLE = true) (hbc : (order nullsFirst b c).isLE = true) :
    (order nullsFirst a c).isLE = true := by
  cases t with
  | list s =>
      simp only [Physical.isFlat, Bool.not_eq_true'] at ht
      cases a <;> cases b <;> cases c
        <;> simp only [fitsWithin, fits, Bool.false_and, Bool.false_eq_true, Bool.true_and,
          List.all_eq_true] at ha hb hc
          <;> (try (cases nullsFirst <;> simp [order] at hab hbc ⊢; done))
      simp only [order] at hab hbc ⊢
      exact orderList_trans ht ha hb hc hab hbc
  | _ =>
      exact order_trans_plain rfl (fits_of_fitsWithin ha) (fits_of_fitsWithin hb)
        (fits_of_fitsWithin hc) hab hbc

theorem order_eq (ht : t.isFlat = true) (ha : a.fitsWithin t = true)
    (hb : b.fitsWithin t = true) :
    order nullsFirst a b = .eq ↔ a.bare = b.bare := by
  cases t with
  | list s =>
      simp only [Physical.isFlat, Bool.not_eq_true'] at ht
      cases a <;> cases b
        <;> simp only [fitsWithin, fits, Bool.false_and, Bool.false_eq_true, Bool.true_and,
          List.all_eq_true] at ha hb
          <;> (try (cases nullsFirst <;> simp [order, bare, null]; done))
      simp only [order, bare, list.injEq]
      exact orderList_eq ht ha hb
  | _ => exact order_eq_plain rfl (fits_of_fitsWithin ha) (fits_of_fitsWithin hb)

end Cell

end TypedQuery
