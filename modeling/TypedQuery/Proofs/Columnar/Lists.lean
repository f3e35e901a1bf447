import Mathlib.Data.List.GetD
import TypedQuery.Columnar.Apply
import TypedQuery.Proofs.Outcome

/-!
# Lists in their rows

Functions on lists work on elements that lie in one row and on offsets into it. Here they
are led back to the values in the rows: what is laid down list by list is found again row
by row (`Lists.values_ofValues`), the parts that the functions put together always fit
(`Lists.concat_eq`, `Lists.fromColumns_eq`), and however a column is laid out, a function
on columns of lists is one on their cells.
-/

namespace TypedQuery

namespace Lists

/-! ## Lists that are laid down -/

/-- Between an offset and the next one lies the list that was laid there,
whatever lies before. -/
theorem take_drop_valuesFrom (before : List Cell) (lists : List (List Cell)) (i : Nat) :
    ((before ++ lists.flatten).drop
      ((Offsets.valuesFrom before.length (lists.map List.length)).getD i 0)).take
        ((Offsets.valuesFrom before.length (lists.map List.length)).getD (i + 1) 0
          - (Offsets.valuesFrom before.length (lists.map List.length)).getD i 0)
      = lists.getD i [] := by
  induction lists generalizing before i with
  | nil => cases i <;> simp [Offsets.valuesFrom]
  | cons list rest ih =>
      cases i with
      | zero =>
          have hnext :
              (Offsets.valuesFrom (before.length + list.length) (rest.map List.length))[0]?
              = some (before.length + list.length) := by
            cases rest <;> rfl
          simp [Offsets.valuesFrom, hnext]
      | succ i =>
          have hrest := ih (before ++ list) i
          rw [List.length_append, List.append_assoc] at hrest
          simpa [Offsets.valuesFrom] using hrest

theorem elementsAt_ofValues (values : List (Option (List Cell))) (i : Nat) :
    (ofValues values).elementsAt i = (values.map (·.getD [])).getD i [] :=
  take_drop_valuesFrom [] _ i

theorem row?_ofValues (values : List (Option (List Cell))) (i : Nat) :
    (ofValues values).row? i = values[i]?.join := by
  rw [row?, elementsAt_ofValues, isFilled, ofValues, List.getD_eq_getElem?_getD,
    List.getD_eq_getElem?_getD, List.getElem?_map, List.getElem?_map]
  rcases values[i]? with _ | _ | items <;> rfl

theorem rows_ofValues (values : List (Option (List Cell))) :
    (ofValues values).rows = values.length :=
  List.length_map _

theorem length_values (a : Lists) :
    a.values.length = a.rows := by rw [Lists.values, List.length_map, List.length_range]

theorem getElem?_values (a : Lists) {i : Nat} (hi : i < a.rows) :
    a.values[i]? = some (a.row? i) := by
  rw [Lists.values, List.getElem?_map, List.getElem?_range hi, Option.map_some]

theorem values_ofValues (values : List (Option (List Cell))) :
    (ofValues values).values = values := by
  refine List.ext_getElem (by rw [length_values, rows_ofValues]) fun i _ hi => ?_
  simp only [Lists.values, List.getElem_map, List.getElem_range, row?_ofValues,
    List.getElem?_eq_getElem hi, Option.join_some]

/-- Elements and offsets that follow the same lists fit together. -/
theorem ofParts_ofValues (values : List (Option (List Cell))) :
    ofParts (.ofLengths ((values.map (·.getD [])).map List.length))
      (values.map (·.getD [])).flatten
        (values.map Option.isSome)
      = .ok (ofValues values) := by
  rw [ofParts, dif_pos ⟨(ofValues values).length_offsets, (ofValues values).within⟩]
  rfl

/-! ## What the functions put together -/

/-- The offsets of a row are within the elements and in order. -/
theorem length_elementsAt (a : Lists) {i : Nat} (hi : i < a.rows) :
    (a.elementsAt i).length = a.lengthAt i := by
  have hlength := a.length_offsets
  unfold rows at hi
  have hnext : i + 1 < a.offsets.values.length := by omega
  have hle : a.offsets.values.getD (i + 1) 0 ≤ a.elements.length := by
    rw [List.getD_eq_getElem _ _ hnext]
    exact a.within _ (List.getElem_mem hnext)
  rw [elementsAt, List.length_take, List.length_drop, lengthAt]
  omega

theorem lengths_eq (a : Lists) :
    a.lengths = a.values.map (·.map fun items => (items.length : Int)) := by
  rw [Lists.values, List.map_map]
  refine List.map_congr_left fun i hi => ?_
  rw [Function.comp_apply, row?, ← length_elementsAt a (List.mem_range.1 hi)]
  split <;> rfl

theorem getElem?_lengths (a : Lists) {i : Nat} (hi : i < a.rows) :
    a.lengths[i]? = some ((a.row? i).map fun items => (items.length : Int)) := by
  rw [lengths_eq, List.getElem?_map, getElem?_values a hi, Option.map_some]

/-- The elements of both lists, if there are both. -/
def joined (as bs : Option (List Cell)) : Option (List Cell) :=
  as.bind fun as => bs.map (as ++ ·)

theorem joined_assoc (as bs cs : Option (List Cell)) :
    joined (joined as bs) cs = joined as (joined bs cs) := by
  cases as <;> cases bs <;> cases cs <;> simp [joined]

theorem zipWith_joined_assoc (as bs cs : List (Option (List Cell))) :
    List.zipWith joined (List.zipWith joined as bs) cs
      = List.zipWith joined as (List.zipWith joined bs cs) := by
  induction as generalizing bs cs with
  | nil => rfl
  | cons a as ih =>
      cases bs with
      | nil => rfl
      | cons b bs =>
          cases cs with
          | nil => rfl
          | cons c cs => simp only [List.zipWith_cons_cons, joined_assoc, ih]

theorem zipWith_values (l r : Lists) :
    List.zipWith joined l.values r.values
      = (List.range (min l.rows r.rows)).map fun i => joined (l.row? i) (r.row? i) := by
  refine List.ext_getElem (by simp [Lists.values]) fun i _ _ => ?_
  simp [Lists.values]

theorem concat_eq (l r : Lists) :
    l.concat r = .ok (ofValues (List.zipWith joined l.values r.values)) := by
  have hrow (i : Nat) : (joined (l.row? i) (r.row? i)).getD []
      = if l.isFilled i && r.isFilled i then l.elementsAt i ++ r.elementsAt i else [] := by
    cases hl : l.isFilled i <;> cases hr : r.isFilled i <;> simp [joined, row?, hl, hr]
  rw [← ofParts_ofValues, zipWith_values, concat]
  have hlengths : ((List.range (min l.rows r.rows)).map fun i =>
        if l.isFilled i && r.isFilled i then l.lengthAt i + r.lengthAt i else 0)
      = (List.range (min l.rows r.rows)).map
          (List.length ∘ (·.getD []) ∘ fun i => joined (l.row? i) (r.row? i)) := by
    refine List.map_congr_left fun i hi => ?_
    have hi := List.mem_range.1 hi
    simp only [Function.comp_apply, hrow]
    split
    · rw [List.length_append, length_elementsAt l (by omega), length_elementsAt r (by omega)]
    · rfl
  have hpieces : ((List.range (min l.rows r.rows)).flatMap fun i =>
        if l.isFilled i && r.isFilled i then [l.elementsAt i, r.elementsAt i]
          else []).flatten
      = ((List.range (min l.rows r.rows)).map
          ((·.getD []) ∘ fun i => joined (l.row? i) (r.row? i))).flatten := by
    rw [List.flatMap_def, List.flatten_flatten, List.map_map]
    refine congrArg List.flatten (List.map_congr_left fun i _ => ?_)
    simp only [Function.comp_apply, hrow]
    split <;> simp
  have hpresent (i : Nat) : (l.isFilled i && r.isFilled i)
      = (joined (l.row? i) (r.row? i)).isSome := by
    cases hl : l.isFilled i <;> cases hr : r.isFilled i <;> simp [joined, row?, hl, hr]
  simp only [hlengths, hpieces]
  simp only [hpresent, List.map_map, Function.comp_def]

theorem lengths_concat {l r out : Lists} (h : l.concat r = .ok out) :
    out.lengths = List.zipWith (fun m n => m.bind fun m => n.map (m + ·))
      l.lengths r.lengths := by
  have hlength (as bs : Option (List Cell)) :
      ((joined as bs).map fun items => (items.length : Int))
      = (as.map fun items => (items.length : Int)).bind fun m =>
          (bs.map fun items => (items.length : Int)).map (m + ·) := by
    cases as <;> cases bs <;> simp [joined]
  rw [concat_eq] at h
  obtain rfl := Except.ok.inj h
  rw [lengths_eq, lengths_eq, lengths_eq, values_ofValues, List.map_zipWith,
    List.zipWith_map]
  exact congrArg (List.zipWith · l.values r.values) (funext₂ hlength)

theorem fromColumns_eq (columns : List Column) (rows : Nat) :
    fromColumns columns rows
      = .ok (ofValues ((List.range rows).map fun i =>
        some (columns.map fun c => c.cells.getD i .null))) := by
  rw [← ofParts_ofValues, fromColumns, List.map_map, List.map_map, List.map_map]
  have hrow (i : Nat) :
      interleave columns ((List.range columns.length).map fun column => (column, i))
      = columns.map fun c => c.cells.getD i .null := by
    rw [interleave, List.map_map]
    refine List.ext_getElem (by simp) fun j hj _ => ?_
    have hj : j < columns.length := by simpa using hj
    simp [hj]
  have helements : interleave columns
        ((List.range rows).flatMap fun row =>
          (List.range columns.length).map fun column => (column, row))
      = ((List.range rows).map fun i => columns.map fun c =>
          c.cells.getD i .null).flatten := by
    rw [interleave, List.map_flatMap, List.flatMap_def]
    exact congrArg List.flatten (List.map_congr_left fun i _ => hrow i)
  rw [helements]
  simp [Function.comp_def]

end Lists

/-! ## Functions on cells -/

namespace Column

theorem values_ofCells (cells : List Cell) :
    (Lists.ofCells cells).values = cells.map Cell.list? :=
  Lists.values_ofValues _

theorem listLength_eq (c : Column) :
    c.listLength = (do
      c.requireList
      .ok (.ints (c.cells.map fun cell => cell.list?.map fun items =>
        (items.length : Int)))) := by
  rw [listLength, Lists.lengths_eq, values_ofCells, List.map_map]
  rfl

/-- Two cells with lists give one with both. -/
def concatCells : Cell → Cell → Cell
  | .list as, .list bs => .list (as ++ bs)
  | _, _ => .null

theorem concatCells_eq (a b : Cell) :
    concatCells a b = Cell.ofOption .list (Lists.joined a.list? b.list?) := by
  cases a <;> cases b <;> rfl

theorem toCells_joined (as bs : List Cell) :
    (Lists.ofValues
      (List.zipWith Lists.joined (as.map Cell.list?) (bs.map Cell.list?))).toCells
      = List.zipWith concatCells as bs := by
  rw [Lists.toCells, Lists.values_ofValues, List.zipWith_map, List.map_zipWith]
  exact congrArg (List.zipWith · as bs) (funext₂ fun a b => (concatCells_eq a b).symm)

theorem listConcat_eq (left right : Column) :
    left.listConcat right = (do
      let right ← right.cast left.type
      left.requireList
      .ok ⟨left.type, List.zipWith concatCells left.cells right.cells⟩) := by
  rw [listConcat]
  refine bind_congr fun right => ?_
  rw [Lists.concat_eq, values_ofCells, values_ofCells, ← toCells_joined]
  rfl

theorem listFromColumns_eq (first : Column) (rest : List Column) :
    listFromColumns (first :: rest)
      = if rest.all (·.type = first.type) then
          .ok ⟨.list first.type,
            (List.range first.length).map fun i =>
              .list ((first :: rest).map fun c => c.cells.getD i .null)⟩
        else .error (.compute .invalidArgument) := by
  rw [listFromColumns, Lists.fromColumns_eq]
  show (if _ then Except.ok (Column.mk _ (Lists.toCells _)) else _) = _
  rw [Lists.toCells, Lists.values_ofValues, List.map_map]
  rfl

end Column

/-! ## Functions on any layout

The same column of lists can be laid out in many ways, and it does not matter in which.
-/

/-- The column, laid out with whatever offsets and whatever lies between the lists
and beneath the nulls. -/
def Lists.Holds (a : Lists) (c : Column) : Prop := a.values = c.cells.map Cell.list?

namespace Lists.Holds

variable {t : Physical} {c left right : Column} {a l r : Lists}

theorem rows_eq (h : a.Holds c) : a.rows = c.length := by
  have hlength := congrArg List.length h
  rwa [Lists.length_values, List.length_map] at hlength

theorem of_values (t : Physical) (a : Lists) : a.Holds ⟨t, a.toCells⟩ := by
  have hlist : Cell.list? ∘ Cell.ofOption .list = id :=
    funext fun items => by cases items <;> rfl
  rw [Lists.Holds, Lists.toCells, List.map_map, hlist, List.map_id]

theorem length (ht : c.type = .list t) (h : a.Holds c) :
    Function.listLength.apply [c] = .ok (.ints a.lengths) := by
  have hlist : c.requireList = .ok () := by rw [Column.requireList, ht]; rfl
  show c.listLength = _
  rw [Column.listLength, hlist, Lists.lengths_eq, Lists.lengths_eq,
    Column.values_ofCells, ← h]
  rfl

theorem concat (hleft : left.type = .list t) (hright : right.type = .list t)
    (hl : l.Holds left) (hr : r.Holds right) :
    ∃ out, l.concat r = .ok out ∧ out.values = List.zipWith Lists.joined l.values r.values
      ∧ Function.listConcat.apply [left, right] = .ok ⟨.list t, out.toCells⟩ := by
  have hlist : left.requireList = .ok () := by rw [Column.requireList, hleft]; rfl
  have hcast : right.cast left.type = .ok right := by
    rw [Column.cast, if_pos (hright.trans hleft.symm)]
  refine ⟨_, Lists.concat_eq l r, Lists.values_ofValues _, ?_⟩
  show left.listConcat right = _
  rw [Column.listConcat_eq, hcast, hlist, show l.values = _ from hl,
    show r.values = _ from hr, Column.toCells_joined, hleft]
  rfl

/-- Row by row the elements of the left list and then those of the right, and null if
either is. -/
theorem concat_rows (hleft : left.type = .list t) (hright : right.type = .list t)
    (hl : l.Holds left) (hr : r.Holds right) (hheight : right.length = left.length) :
    ∃ out both, l.concat r = .ok out ∧ Function.listConcat.apply [left, right] = .ok both
      ∧ out.Holds both
      ∧ both.type = .list t ∧ both.length = left.length
      ∧ ∀ i < left.length, both.cells[i]? = some (Cell.ofOption .list (out.row? i))
          ∧ out.row? i = Lists.joined (l.row? i) (r.row? i) := by
  obtain ⟨out, hout, hvalues, hboth⟩ := hl.concat hleft hright hr
  have hl := hl.rows_eq
  have hr := hr.rows_eq.trans hheight
  have hrows : out.rows = left.length := by
    have hlength := congrArg List.length hvalues
    rwa [List.length_zipWith, Lists.length_values, Lists.length_values,
      Lists.length_values, hl, hr, Nat.min_self] at hlength
  refine ⟨out, _, hout, hboth, of_values _ _, rfl, ?_, fun i hi => ⟨?_, ?_⟩⟩
  · rw [Column.length, Lists.toCells, List.length_map, Lists.length_values, hrows]
  · rw [Lists.toCells, List.getElem?_map, Lists.getElem?_values _ (hrows ▸ hi),
      Option.map_some]
  · have hat := congrArg (·[i]?) hvalues
    simp only [List.getElem?_zipWith] at hat
    rw [Lists.getElem?_values _ (hrows ▸ hi), Lists.getElem?_values _ (hl ▸ hi),
      Lists.getElem?_values _ (hr ▸ hi)] at hat
    exact Option.some.inj hat

/-- However the calls are nested, a whole is laid out in the same way. -/
theorem concat_assoc {third : Column} {s : Lists} (hleft : left.type = .list t)
    (hright : right.type = .list t) (hthird : third.type = .list t) (hl : l.Holds left)
    (hr : r.Holds right) (hs : s.Holds third) :
    ∃ lr rs both others whole, l.concat r = .ok both ∧ r.concat s = .ok others
      ∧ both.concat s = .ok whole
      ∧ l.concat others = .ok whole ∧ Function.listConcat.apply [left, right] = .ok lr
      ∧ Function.listConcat.apply [right, third] = .ok rs
      ∧ Function.listConcat.apply [lr, third] = .ok ⟨.list t, whole.toCells⟩
      ∧ Function.listConcat.apply [left, rs] = .ok ⟨.list t, whole.toCells⟩ := by
  obtain ⟨both, hboth, hvalues, hlr⟩ := hl.concat hleft hright hr
  obtain ⟨others, hothers, hvalues', hrs⟩ := hr.concat hright hthird hs
  obtain ⟨whole, hwhole, -, hleftmost⟩ := (of_values (.list t) both).concat rfl hthird hs
  obtain ⟨whole', hwhole', -, hrightmost⟩ := hl.concat hleft rfl (of_values (.list t) others)
  obtain rfl : whole = whole' := by
    refine Except.ok.inj (hwhole.symm.trans (Eq.trans ?_ hwhole'))
    rw [Lists.concat_eq, Lists.concat_eq, hvalues, hvalues', Lists.zipWith_joined_assoc]
  exact ⟨_, _, both, others, whole, hboth, hothers, hwhole, hwhole', hlr, hrs,
    hleftmost, hrightmost⟩

end Lists.Holds

namespace Column

/-- Columns of one type and height always give lists, one for each row, with the cells that
the columns have in it. -/
theorem listFromColumns_rows {first : Column} {rest : List Column}
    (h : ∀ c ∈ rest, c.type = first.type ∧ c.length = first.length) :
    ∃ a lists, Lists.fromColumns (first :: rest) first.length = .ok a ∧ a.Holds lists
      ∧ Function.listFromColumns.apply (first :: rest) = .ok lists
      ∧ lists.type = .list first.type
      ∧ lists.length = first.length
      ∧ (∀ i < first.length, ∃ items, lists.cells[i]? = some (.list items)
        ∧ items.length = rest.length + 1
        ∧ ∀ k < rest.length + 1, items[k]? = (first :: rest)[k]?.bind fun c => c.cells[i]?)
      ∧ Function.listLength.apply [lists]
          = .ok (.ints (List.replicate first.length (some (rest.length + 1 : Int)))) := by
  have htypes : rest.all (·.type = first.type) = true :=
    List.all_eq_true.2 fun c hc => decide_eq_true (h c hc).1
  have hlists := listFromColumns_eq first rest
  rw [if_pos htypes] at hlists
  refine ⟨_, _, Lists.fromColumns_eq _ _, ?_, hlists, rfl, by simp [Column.length],
    fun i hi => ?_, ?_⟩
  · rw [Lists.Holds, Lists.values_ofValues, List.map_map]
    rfl
  · refine ⟨_, by rw [List.getElem?_map, List.getElem?_range hi, Option.map_some],
      by simp, fun k hk => ?_⟩
    have hin : k < (first :: rest).length := by simpa using hk
    have hheight : ((first :: rest)[k]).length = first.length := by
      rcases List.mem_cons.1 (List.getElem_mem hin) with heq | hmem
      · rw [heq]
      · exact (h _ hmem).2
    have hcell : i < ((first :: rest)[k]).cells.length := Nat.lt_of_lt_of_eq hi hheight.symm
    rw [List.getElem?_map, List.getElem?_eq_getElem hin, Option.map_some, Option.bind_some,
      List.getD_eq_getElem _ _ hcell, List.getElem?_eq_getElem hcell]
  · show listLength _ = _
    rw [listLength_eq]
    refine congrArg (fun ns => Except.ok (ints ns))
      (List.eq_replicate_iff.2 ⟨by simp, fun n hn => ?_⟩)
    obtain ⟨cell, hcell, rfl⟩ := List.mem_map.1 hn
    obtain ⟨i, -, rfl⟩ := List.mem_map.1 hcell
    simp [Cell.list?]

end Column

/-- Functions on columns of lists that are laid out in any way. A concatenation is there,
null where either list is, and otherwise the elements of the left one and then those of the
right; its lengths are the sums of theirs, and it does not matter how calls are nested.
Columns of one type and height give lists that are never null, with the cells of each row
in the order of the columns and so as many as there are columns. -/
theorem lists_in_their_rows {t : Physical} {left right third first : Column}
    {rest : List Column} {l r s : Lists} (hleft : left.type = .list t ∧ l.Holds left)
    (hright : right.type = .list t ∧ r.Holds right)
    (hthird : third.type = .list t ∧ s.Holds third) (hheight : right.length = left.length)
    (hrest : ∀ c ∈ rest, c.type = first.type ∧ c.length = first.length) :
    (∃ out both, l.concat r = .ok out ∧ Function.listConcat.apply [left, right] = .ok both
      ∧ out.Holds both
      ∧ both.type = .list t ∧ both.length = left.length
      ∧ (∀ i < left.length, both.cells[i]? = some (Cell.ofOption .list (out.row? i))
          ∧ (out.row? i = none ↔ l.row? i = none ∨ r.row? i = none)
          ∧ ∀ as bs, l.row? i = some as → r.row? i = some bs →
            out.row? i = some (as ++ bs))
        ∧ Function.listLength.apply [left] = .ok (.ints l.lengths)
        ∧ Function.listLength.apply [right] = .ok (.ints r.lengths)
        ∧ (∀ i < left.length, l.lengths[i]? = some ((l.row? i).map fun items =>
          (items.length : Int))
            ∧ r.lengths[i]? = some ((r.row? i).map fun items => (items.length : Int)))
        ∧ Function.listLength.apply [both]
            = .ok (.ints
              (List.zipWith (fun m n => m.bind fun m => n.map (m + ·)) l.lengths r.lengths)))
      ∧ (∃ lr rs both others whole, l.concat r = .ok both ∧ r.concat s = .ok others
        ∧ both.concat s = .ok whole
        ∧ l.concat others = .ok whole ∧ Function.listConcat.apply [left, right] = .ok lr
        ∧ Function.listConcat.apply [right, third] = .ok rs
        ∧ Function.listConcat.apply [lr, third] = .ok ⟨.list t, whole.toCells⟩
        ∧ Function.listConcat.apply [left, rs] = .ok ⟨.list t, whole.toCells⟩)
      ∧ ∃ a lists, Lists.fromColumns (first :: rest) first.length = .ok a ∧ a.Holds lists
        ∧ Function.listFromColumns.apply (first :: rest) = .ok lists
        ∧ lists.type = .list first.type
        ∧ lists.length = first.length
        ∧ (∀ i < first.length, ∃ items, lists.cells[i]? = some (.list items)
          ∧ items.length = rest.length + 1
          ∧ ∀ k < rest.length + 1, items[k]? = (first :: rest)[k]?.bind
            fun c => c.cells[i]?)
        ∧ Function.listLength.apply [lists]
            = .ok (.ints (List.replicate first.length (some (rest.length + 1 : Int)))) := by
  obtain ⟨hlist, hl⟩ := hleft
  obtain ⟨hlist', hr⟩ := hright
  refine ⟨?_, hl.concat_assoc hlist hlist' hthird.1 hr hthird.2,
    Column.listFromColumns_rows hrest⟩
  obtain ⟨out, both, hout, hboth, hholds, htype, hrows, hrow⟩ :=
    hl.concat_rows hlist hlist' hr hheight
  refine ⟨out, both, hout, hboth, hholds, htype, hrows, fun i hi => ⟨(hrow i hi).1, ?_, ?_⟩,
    hl.length hlist, hr.length hlist',
    fun i hi => ⟨Lists.getElem?_lengths _ (hl.rows_eq ▸ hi),
      Lists.getElem?_lengths _ ((hr.rows_eq.trans hheight) ▸ hi)⟩, ?_⟩
  · rw [(hrow i hi).2]
    cases l.row? i <;> cases r.row? i <;> simp [Lists.joined]
  · intro as bs has hbs
    rw [(hrow i hi).2, has, hbs]
    rfl
  · rw [hholds.length htype, Lists.lengths_concat hout]

/-- The left lists are a stretch that begins after a first element and has one beneath its
null. -/
theorem lists_in_their_rows_of_stretch :
    ∃ (l r : Lists) (left right : Column), l.offsets.values = [1, 3, 3, 4]
      ∧ l.filled = [true, true, false]
      ∧ l.elements = [.int 9, .int 1, .null, .int 7] ∧ r.offsets.values = [0, 1, 2, 2]
      ∧ r.filled = [true, false, true]
      ∧ r.elements = [.int 3, .int 4]
      ∧ left = ⟨.list .int64, [.list [.int 1, .null], .list [], .null]⟩
      ∧ right = ⟨.list .int64, [.list [.int 3], .null, .list []]⟩
      ∧ l.Holds left ∧ r.Holds right
      ∧ (∃ both, Function.listConcat.apply [left, right] = .ok both
          ∧ both.cells = [.list [.int 1, .null, .int 3], .null, .null]
          ∧ Function.listLength.apply [both] = .ok (.ints [some 3, none, none]))
      ∧ ∃ lists, Function.listFromColumns.apply [left, right] = .ok lists
          ∧ lists.cells
            = [.list [.list [.int 1, .null], .list [.int 3]], .list [.list [], .null],
              .list [.null, .list []]]
          ∧ Function.listLength.apply [lists] = .ok (.ints [some 2, some 2, some 2]) := by
  let l : Lists :=
    ⟨⟨[1, 3, 3, 4], by decide⟩, [.int 9, .int 1, .null, .int 7],
      [true, true, false], rfl, by decide⟩
  let r : Lists :=
    ⟨⟨[0, 1, 2, 2], by decide⟩, [.int 3, .int 4], [true, false, true], rfl, by decide⟩
  let left : Column := ⟨.list .int64, [.list [.int 1, .null], .list [], .null]⟩
  let right : Column := ⟨.list .int64, [.list [.int 3], .null, .list []]⟩
  have hl : left.type = .list .int64 ∧ l.Holds left := ⟨rfl, rfl⟩
  have hr : right.type = .list .int64 ∧ r.Holds right := ⟨rfl, rfl⟩
  have hrest : ∀ c ∈ [right], c.type = left.type ∧ c.length = left.length :=
    fun c hc => List.mem_singleton.1 hc ▸ ⟨rfl, rfl⟩
  obtain ⟨⟨_, both, -, hboth, -, -, -, -, -, -, -, hlengths⟩, -, _, lists, -, -, hlists, -,
      -, -, hwidths⟩ :=
    lists_in_their_rows hl hr hr rfl hrest
  refine ⟨l, r, left, right, rfl, rfl, rfl, rfl, rfl, rfl, rfl, rfl, hl.2, hr.2,
    ⟨both, hboth, ?_, hlengths⟩, lists, hlists, ?_, hwidths⟩
  · cases hboth
    rfl
  · cases hlists
    rfl

end TypedQuery
