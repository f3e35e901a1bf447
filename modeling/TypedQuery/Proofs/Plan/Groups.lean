import Mathlib.Data.List.GetD
import Mathlib.Data.List.Induction
import Mathlib.Data.List.Perm.Basic
import TypedQuery.Proofs.Plan.Keys

/-!
# Groups of rows

Grouping takes the rows one by one and adds each to the group of its key. What it comes to
is one group for each different key, in the order in which the keys first appear, with all
positions of the key (`groupRows_eq`). That groups are a partition of the rows follows from
this, and so does what becomes of them when the rows are moved.
-/

namespace TypedQuery

/-! ## Lists without repetitions -/

section

variable {α : Type} [BEq α] [LawfulBEq α] {as bs : List α}

theorem eraseDups_append_singleton (as : List α) (a : α) :
    (as ++ [a]).eraseDups = if a ∈ as then as.eraseDups else as.eraseDups ++ [a] := by
  rw [List.eraseDups_append]
  split
  · next h => simp [List.removeAll, h]
  · next h => simp [List.removeAll, h, List.eraseDups_cons]

theorem nodup_eraseDups (as : List α) : as.eraseDups.Nodup := by
  induction as using List.reverseRecOn with
  | nil => exact List.nodup_nil
  | append_singleton as a ih =>
      rw [eraseDups_append_singleton]
      split
      · exact ih
      · next h =>
          refine List.nodup_append.2 ⟨ih, List.nodup_singleton a, fun b hb c hc => ?_⟩
          rw [List.mem_singleton.1 hc]
          rintro rfl
          exact h (List.mem_eraseDups.1 hb)

/-- Lists with the same members are the same without repetitions, but for the order. -/
theorem eraseDups_perm (h : ∀ a, a ∈ as ↔ a ∈ bs) : as.eraseDups.Perm bs.eraseDups := by
  refine (List.perm_ext_iff_of_nodup (nodup_eraseDups as) (nodup_eraseDups bs)).2 fun a => ?_
  rw [List.mem_eraseDups, List.mem_eraseDups, h]

/-- Members first appear in the order in which they are kept. -/
theorem pairwise_idxOf_eraseDups (as : List α) :
    (as.eraseDups.map as.idxOf).Pairwise (· < ·) := by
  induction as using List.reverseRecOn with
  | nil => exact .nil
  | append_singleton as a ih =>
      have hbefore : as.eraseDups.map (as ++ [a]).idxOf = as.eraseDups.map as.idxOf :=
        List.map_congr_left fun b hb => List.idxOf_append_of_mem (List.mem_eraseDups.1 hb)
      rw [eraseDups_append_singleton]
      split
      · rwa [hbefore]
      · next h =>
          rw [List.map_append, hbefore, List.map_singleton, List.idxOf_append_of_notMem h,
            List.idxOf_cons_self]
          refine List.pairwise_append.2
            ⟨ih, List.pairwise_singleton _ _, fun i hi j hj => ?_⟩
          obtain ⟨b, hb, rfl⟩ := List.mem_map.1 hi
          rw [List.mem_singleton.1 hj]
          exact List.idxOf_lt_length_of_mem (List.mem_eraseDups.1 hb)

end

namespace Batch

variable {keys : List (List Cell)} {key : List Cell} {i j : Nat}

/-! ## Positions of keys -/

/-- The positions of the rows with a key. -/
def placesOf (keys : List (List Cell)) (key : List Cell) : List Nat :=
  (List.range keys.length).filter fun i => keys[i]? = some key

theorem mem_placesOf : i ∈ placesOf keys key ↔ keys[i]? = some key := by
  rw [placesOf, List.mem_filter, List.mem_range, decide_eq_true_iff]
  exact ⟨fun h => h.2, fun h => ⟨(List.getElem?_eq_some_iff.1 h).1, h⟩⟩

theorem placesOf_append_singleton (keys : List (List Cell)) (last key : List Cell) :
    placesOf (keys ++ [last]) key = placesOf keys key ++ if last = key then
      [keys.length] else [] := by
  have hbefore : (List.range keys.length).filter (fun i => (keys ++ [last])[i]? = some key)
      = placesOf keys key :=
    List.filter_congr fun i hi => by rw [List.getElem?_append_left (List.mem_range.1 hi)]
  rw [placesOf, List.length_append, List.length_singleton, List.range_succ,
    List.filter_append, hbefore]
  split
  · next h => simp [h]
  · next h => simp [h]

theorem pairwise_placesOf (keys : List (List Cell)) (key : List Cell) :
    (placesOf keys key).Pairwise (· < ·) :=
  List.pairwise_lt_range.filter _

/-- A key first appears at the first of its positions. -/
theorem head?_placesOf (h : key ∈ keys) :
    (placesOf keys key).head? = some (keys.idxOf key) := by
  rw [placesOf, List.head?_filter, List.find?_range_eq_some]
  have hlt := List.idxOf_lt_length_of_mem h
  refine ⟨by simp [List.getElem_idxOf hlt, hlt], List.mem_range.2 hlt, fun j hj => ?_⟩
  have hj' : j < keys.length := Nat.lt_trans hj hlt
  simpa [hj'] using List.not_of_lt_findIdx hj

/-! ## One row after the other -/

theorem addToGroup_of_notMem {groups : List (List Cell × List Nat)}
    (h : key ∉ groups.map (·.1)) (position : Nat) :
    addToGroup groups key position = groups ++ [(key, [position])] := by
  induction groups with
  | nil => rfl
  | cons first rest ih =>
      rw [List.map_cons, List.mem_cons, not_or] at h
      rw [addToGroup, if_neg (Ne.symm h.1), ih h.2, List.cons_append]

theorem addToGroup_of_mem {ks : List (List Cell)} (hks : ks.Nodup) (h : key ∈ ks)
    (members : List Cell → List Nat) (position : Nat) :
    addToGroup (ks.map fun k => (k, members k)) key position
      = ks.map fun k => (k, members k ++ if key = k then [position] else []) := by
  induction ks with
  | nil => cases h
  | cons first rest ih =>
      obtain ⟨hfirst, hrest⟩ := List.nodup_cons.1 hks
      rw [List.map_cons, addToGroup]
      split
      · next heq =>
          subst heq
          rw [List.map_cons, if_pos rfl]
          congr 1
          refine List.map_congr_left fun k hk => ?_
          have hne : first ≠ k := fun h => hfirst (h ▸ hk)
          rw [if_neg hne, List.append_nil]
      · next hne =>
          rw [List.map_cons, ih hrest ((List.mem_cons.1 h).resolve_left (Ne.symm hne)),
            if_neg (Ne.symm hne), List.append_nil]

/-- The groups that have been found after some rows. -/
theorem foldl_addToGroup (keys : List (List Cell)) :
    keys.zipIdx.foldl (fun groups row => addToGroup groups row.1 row.2) []
      = keys.eraseDups.map fun key => (key, placesOf keys key) := by
  induction keys using List.reverseRecOn with
  | nil => rfl
  | append_singleton keys last ih =>
      rw [List.zipIdx_append, List.foldl_append, ih, eraseDups_append_singleton]
      simp only [List.zipIdx_singleton, List.foldl_cons, List.foldl_nil, Nat.zero_add,
        placesOf_append_singleton]
      split
      · next h => exact addToGroup_of_mem (nodup_eraseDups keys) (List.mem_eraseDups.2 h) _ _
      · next h =>
          have hne : ∀ key ∈ keys.eraseDups, last ≠ key :=
            fun key hkey heq => h (heq ▸ List.mem_eraseDups.1 hkey)
          have hempty : placesOf keys last = [] := by
            refine List.eq_nil_iff_forall_not_mem.2 fun i hi => h ?_
            exact List.mem_of_getElem? (mem_placesOf.1 hi)
          rw [addToGroup_of_notMem (by simpa using h), List.map_append, List.map_singleton,
            if_pos rfl, hempty, List.nil_append]
          congr 1
          exact List.map_congr_left fun key hkey =>
            by rw [if_neg (hne key hkey), List.append_nil]

/-- The groups are the positions of the different keys. -/
theorem groupRows_eq (keys : List (List Cell)) :
    groupRows keys = keys.eraseDups.map (placesOf keys) := by
  have hfold := congrArg (List.map (·.2)) (foldl_addToGroup keys)
  rwa [List.map_map] at hfold

theorem mem_groupRows {members : List Nat} :
    members ∈ groupRows keys ↔ ∃ key ∈ keys, members = placesOf keys key := by
  rw [groupRows_eq, List.mem_map]
  simp only [List.mem_eraseDups, eq_comm]

/-! ## A partition of the rows -/

theorem flatten_groupRows_perm (keys : List (List Cell)) :
    (groupRows keys).flatten.Perm (List.range keys.length) := by
  have hnodup : (groupRows keys).flatten.Nodup := by
    rw [groupRows_eq, List.nodup_flatten]
    constructor
    · intro members hmembers
      obtain ⟨key, -, rfl⟩ := List.mem_map.1 hmembers
      exact (pairwise_placesOf keys key).imp Nat.ne_of_lt
    · refine List.pairwise_map.2
        ((nodup_eraseDups keys).imp fun {key other} hne i hi hi' => hne ?_)
      exact Option.some.inj ((mem_placesOf.1 hi).symm.trans (mem_placesOf.1 hi'))
  refine (List.perm_ext_iff_of_nodup hnodup List.nodup_range).2 fun i => ?_
  rw [List.mem_flatten, List.mem_range]
  constructor
  · rintro ⟨members, hmembers, hi⟩
    exact lt_of_mem_groupRows hmembers hi
  · intro hi
    have hkey := List.getElem?_eq_getElem hi
    exact ⟨_, mem_groupRows.2 ⟨_, List.getElem_mem hi, rfl⟩, mem_placesOf.2 hkey⟩

theorem placesOf_ne_nil (h : key ∈ keys) : placesOf keys key ≠ [] := by
  intro hnil
  have hhead := head?_placesOf h
  rw [hnil] at hhead
  cases hhead

/-- Rows are in one group if and only if they have the same key. -/
theorem together_iff (hi : i < keys.length) :
    (∃ members ∈ groupRows keys, i ∈ members ∧ j ∈ members) ↔ keys[i]? = keys[j]? := by
  constructor
  · rintro ⟨members, hmembers, hi, hj⟩
    obtain ⟨key, -, rfl⟩ := mem_groupRows.1 hmembers
    rw [mem_placesOf.1 hi, mem_placesOf.1 hj]
  · intro h
    have hkey := List.getElem?_eq_getElem hi
    exact ⟨_, mem_groupRows.2 ⟨_, List.getElem_mem hi, rfl⟩, mem_placesOf.2 hkey,
      mem_placesOf.2 (h.symm.trans hkey)⟩

/-- The first rows of the groups. -/
theorem heads_groupRows (keys : List (List Cell)) :
    (groupRows keys).map List.head? = (keys.eraseDups.map keys.idxOf).map some := by
  rw [groupRows_eq, List.map_map, List.map_map]
  exact List.map_congr_left fun key hkey => head?_placesOf (List.mem_eraseDups.1 hkey)

theorem firsts_groupRows (keys : List (List Cell)) :
    (groupRows keys).map (·.headD 0) = keys.eraseDups.map keys.idxOf := by
  rw [groupRows_eq, List.map_map]
  refine List.map_congr_left fun key hkey => ?_
  rw [Function.comp_apply, List.headD_eq_head?_getD,
    head?_placesOf (List.mem_eraseDups.1 hkey)]
  rfl

theorem groupRows_eq_nil_iff : groupRows keys = [] ↔ keys = [] := by
  constructor
  · intro h
    refine List.eq_nil_iff_forall_not_mem.2 fun key hkey => ?_
    have hmem := mem_groupRows.2 ⟨key, hkey, rfl⟩
    rw [h] at hmem
    cases hmem
  · rintro rfl
    rfl

/-! ## Rows that are moved -/

variable {b : Batch} {cs cs' : List Column} {n : Nat} {rows : List Nat}

/-- All rows in their order are the batch. -/
theorem gather_range (hb : b.Rectangular) : b.gather ((List.range b.rows).map some) = b := by
  have hsame :=
    eq_gather id hb (fun i hi => List.mem_range.1 hi) List.length_range.symm fun c hc => by
    obtain ⟨t, f, rfl, -⟩ : Column.Taken _ [] c _ := .of_gather hc
    exact ⟨t, f, rfl, rfl⟩
  rw [← hsame, show (fun c : String × Column => (c.1, id c.2)) = id from rfl, List.map_id]

theorem rectangular_gather (b : Batch) (rows : List (Option Nat)) :
    (b.gather rows).Rectangular := by
  intro c hc
  obtain ⟨c, -, rfl⟩ := List.mem_map.1 hc
  exact List.length_map _

/-- Rows of moved rows are rows of the batch. -/
theorem gather_gather (b : Batch) (rows : List Nat) {places : List Nat}
    (hplaces : ∀ i ∈ places, i < rows.length) :
    (b.gather (rows.map some)).gather (places.map some)
      = b.gather ((places.map fun i => rows.getD i 0).map some) := by
  have hcolumn : ∀ c : Column,
      (c.gather (rows.map some)).gather (places.map some)
        = c.gather ((places.map fun i => rows.getD i 0).map some) := by
    intro c
    simp only [Column.gather, List.map_map]
    refine congrArg _ (List.map_congr_left fun i hi => ?_)
    simp [hplaces i hi]
  rw [gather, gather, gather, List.map_map, List.length_map, List.length_map,
    List.length_map]
  exact congrArg _ (List.map_congr_left fun c _ => congrArg (c.1, ·) (hcolumn c.2))

/-- The keys of moved rows are moved with them. -/
theorem tuples_taken (h : List.Forall₂ (Column.Taken n rows) cs cs') :
    Taken n rows (tuples n cs) (tuples rows.length cs') := by
  induction h with
  | nil => exact .replicate []
  | cons hc _ ih => exact .zipWith _ (hc.cells.map _) ih

/-- Each key once, as it is found in the first rows of the groups. -/
theorem tuples_firsts (h : ∀ c ∈ cs, c.length = n) :
    tuples (groupRows (tuples n cs)).length
      (cs.map (·.gather ((groupRows (tuples n cs)).map List.head?)))
      = (tuples n cs).eraseDups := by
  let keys := tuples n cs
  let firsts := keys.eraseDups.map keys.idxOf
  have htaken :
      List.Forall₂ (Column.Taken n firsts) cs (cs.map (·.gather (firsts.map some))) := by
    rw [List.forall₂_map_right_iff, List.forall₂_same]
    exact fun c hc => .of_gather (h c hc)
  obtain ⟨f, hall, hfirsts⟩ := tuples_taken htaken
  have hlength : (groupRows keys).length = firsts.length := by
    rw [groupRows_eq, List.length_map, List.length_map]
  have hkeys : keys.length = n := length_tuples h
  rw [heads_groupRows, hlength, hfirsts, List.map_map]
  refine (List.map_congr_left fun key hkey => ?_).trans (List.map_id _)
  have hlt : keys.idxOf key < keys.length :=
    List.idxOf_lt_length_of_mem (List.mem_eraseDups.1 hkey)
  have hget : keys[keys.idxOf key]? = some (f (keys.idxOf key)) := by
    have hrange : keys.idxOf key < n := hkeys ▸ hlt
    refine (congrArg (·[keys.idxOf key]?) hall).trans ?_
    simp [hrange]
  rw [List.getElem?_eq_getElem hlt, List.getElem_idxOf] at hget
  exact (Option.some.inj hget).symm

theorem tuples_append (h : ∀ c ∈ cs, c.length = n) {ds : List Column}
    (hd : ∀ d ∈ ds, d.length = n) :
    tuples n (cs ++ ds) = List.zipWith (· ++ ·) (tuples n cs) (tuples n ds) := by
  have hright : ∀ rest : List (List Cell), rest.length = n →
      List.zipWith (· ++ ·) (List.replicate n []) rest = rest := by
    intro rest hrest
    refine List.ext_getElem (by simp [hrest]) fun i _ hi => ?_
    simp
  induction cs with
  | nil => exact (hright _ (length_tuples hd)).symm
  | cons c rest ih =>
      have ih := ih (List.forall_mem_cons.1 h).2
      unfold tuples at ih ⊢
      rw [List.cons_append, List.foldr_cons, List.foldr_cons, ih]
      refine List.ext_getElem (by simp [Nat.min_assoc]) fun i _ _ => ?_
      simp

/-! ## Rows in another order -/

/-- A list in another order has its items at positions in another order. -/
theorem exists_positions {α : Type} {xs ys : List α} (h : ys.Perm xs) (default : α) :
    ∃ places : List Nat, places.Perm (List.range xs.length) ∧ ys = places.map fun i =>
      xs.getD i default := by
  rw [← map_getD_range xs default] at h
  have hcomp := congrFun (congrFun (List.eq_map_comp_perm fun i => xs.getD i default) ys)
    (List.range xs.length)
  obtain ⟨places, hys, hplaces⟩ := hcomp.mpr h
  exact ⟨places, hplaces, hys⟩

variable {order : List Nat}

/-- Where rows are put in another order, the positions of a key are those where its
rows have come to stand. -/
theorem placesOf_perm (horder : order.Perm (List.range keys.length)) (key : List Cell) :
    ((placesOf (order.map fun i => keys.getD i []) key).map fun i => order.getD i 0).Perm
      (placesOf keys key) := by
  have hlt : ∀ i ∈ placesOf (order.map fun i => keys.getD i []) key, i < order.length :=
    fun i hi => by
    have := (List.getElem?_eq_some_iff.1 (mem_placesOf.1 hi)).1
    rwa [List.length_map] at this
  have hnodup : order.Nodup := horder.nodup_iff.2 List.nodup_range
  refine (List.perm_ext_iff_of_nodup ?_ ((pairwise_placesOf keys key).imp Nat.ne_of_lt)).2
    fun j => ?_
  · refine List.Nodup.map_on (fun i hi j hj hij => ?_)
      ((pairwise_placesOf _ key).imp Nat.ne_of_lt)
    rw [List.getD_eq_getElem _ _ (hlt i hi), List.getD_eq_getElem _ _ (hlt j hj)] at hij
    exact hnodup.getElem_inj_iff.1 hij
  · rw [List.mem_map, mem_placesOf]
    have hrow : ∀ i (hi : i < order.length),
        (order.map fun i => keys.getD i [])[i]? = keys[order[i]]? := by
      intro i hi
      have hbound : order[i] < keys.length :=
        List.mem_range.1 (horder.mem_iff.1 (List.getElem_mem hi))
      simp [hi, hbound]
    constructor
    · rintro ⟨i, hi, rfl⟩
      have hi' := hlt i hi
      rw [List.getD_eq_getElem _ _ hi', ← hrow i hi']
      exact mem_placesOf.1 hi
    · intro hj
      have hmem : j ∈ order :=
        horder.mem_iff.2 (List.mem_range.2 (List.getElem?_eq_some_iff.1 hj).1)
      obtain ⟨i, hi, rfl⟩ := List.getElem_of_mem hmem
      exact ⟨i, mem_placesOf.2 ((hrow i hi).trans hj), List.getD_eq_getElem _ _ hi⟩

/-- The group of a key after the rows have been put in another order is its group
before, in another order. -/
theorem group_perm (b : Batch) (horder : order.Perm (List.range keys.length))
    (key : List Cell) :
    ∃ places : List Nat, places.Perm (List.range (placesOf keys key).length)
      ∧ (b.gather (order.map some)).gather
        ((placesOf (order.map fun i => keys.getD i []) key).map some)
          = (b.gather ((placesOf keys key).map some)).gather (places.map some) := by
  obtain ⟨places, hplaces, hmembers⟩ := exists_positions (placesOf_perm horder key) 0
  refine ⟨places, hplaces, ?_⟩
  have hlt : ∀ i ∈ placesOf (order.map fun i => keys.getD i []) key, i < order.length :=
    fun i hi => by
    have := (List.getElem?_eq_some_iff.1 (mem_placesOf.1 hi)).1
    rwa [List.length_map] at this
  rw [gather_gather b order hlt, hmembers,
    gather_gather b (placesOf keys key) fun i hi => List.mem_range.1 (hplaces.mem_iff.1 hi)]

end Batch

end TypedQuery
