import PlainVerse.Proofs.AliasTable.Runs

/-!
# The least free name

A name is generated by a loop that has no bound of its own: it raises the counter of the base, a
word of 32 bits, until the name with that index is free. The loop ends exactly at the least free
index after the counter, after as many tries as the counter has moved. As only so many candidates
can be defined, it ends without an overflow wherever there is room for all defined names and one
more, and what it finds is what the table generates.
-/
namespace PlainVerse.AliasTable

/-- The loop from a counter ends after a number of tries, with the counter at an index. A try raises
the counter, which must not overflow, and the loop goes on if the name with the new index is
defined. -/
inductive Search (defined : List String) (base : String) : UInt32 → Nat → UInt32 → Prop
  | free {counter : UInt32} :
      counter.toNat + 1 < UInt32.size → candidate base (counter + 1).toNat ∉ defined →
      Search defined base counter 1 (counter + 1)
  | taken {counter index : UInt32} {tries : Nat} :
      counter.toNat + 1 < UInt32.size → candidate base (counter + 1).toNat ∈ defined →
      Search defined base (counter + 1) tries index → Search defined base counter (tries + 1) index

theorem toNat_raised {counter : UInt32} (fits : counter.toNat + 1 < UInt32.size) :
    (counter + 1).toNat = counter.toNat + 1 := by
  rw [UInt32.toNat_add, UInt32.toNat_one]
  exact Nat.mod_eq_of_lt fits

section
variable {defined : List String} {base : String}

/-- A try at a defined name leaves the same indices to find. -/
theorem freeAfter_succ {counter : Nat} (taken : candidate base (counter + 1) ∈ defined) :
    freeAfter defined base (counter + 1) = freeAfter defined base counter := by
  ext index
  constructor
  · rintro ⟨after, free⟩
    exact ⟨Nat.lt_of_succ_lt after, free⟩
  · rintro ⟨after, free⟩
    have other : index ≠ counter + 1 := by
      rintro rfl
      exact free taken
    exact ⟨by omega, free⟩

theorem Search.isLeast {counter index : UInt32} {tries : Nat}
    (search : Search defined base counter tries index) :
    IsLeast (freeAfter defined base counter.toNat) index.toNat ∧
      index.toNat = counter.toNat + tries := by
  induction search with
  | free fits free =>
      rw [toNat_raised fits] at free ⊢
      exact ⟨isLeast_succ free, rfl⟩
  | taken fits taken _ ih =>
      obtain ⟨least, moved⟩ := ih
      rw [toNat_raised fits] at taken least moved
      rw [freeAfter_succ taken] at least
      exact ⟨least, by omega⟩

/-- The loop does not stop before the least free index, and gets to it if it is a word. A try at a
defined name keeps the least index, and the counter is one closer to it. -/
theorem search_of_isLeast {counter index : UInt32} {tries : Nat}
    (least : IsLeast (freeAfter defined base counter.toNat) index.toNat)
    (moved : index.toNat = counter.toNat + tries) : Search defined base counter tries index := by
  induction tries generalizing counter with
  | zero =>
      have after : counter.toNat < index.toNat := least.1.1
      omega
  | succ tries ih =>
      have fits : counter.toNat + 1 < UInt32.size := by
        have word := index.toNat_lt_size
        omega
      have raised := toNat_raised fits
      by_cases taken : candidate base (counter + 1).toNat ∈ defined
      · have later : IsLeast (freeAfter defined base (counter + 1).toNat) index.toNat := by
          rw [raised] at taken ⊢
          rw [freeAfter_succ taken]
          exact least
        exact .taken fits taken (ih later (by omega))
      · have here : index.toNat = (counter + 1).toNat := by
          rw [raised] at taken ⊢
          exact least.unique (isLeast_succ taken)
        obtain rfl := UInt32.toNat.inj here
        obtain rfl : tries = 0 := by omega
        exact .free fits taken

theorem search_iff {counter index : UInt32} {tries : Nat} :
    Search defined base counter tries index ↔
      IsLeast (freeAfter defined base counter.toNat) index.toNat ∧
        index.toNat = counter.toNat + tries :=
  ⟨Search.isLeast, fun found => search_of_isLeast found.1 found.2⟩

end

/-- Of any table, whatever has led to it: if the counter of a base leaves room for as many indices
as there are defined names and one more, then the loop ends, in one way only, after at most that
many tries. The generated name is the candidate at the least index after the counter whose name is
not defined. The counter of the base becomes that index, and no other counter changes. -/
theorem fresh_takes_least_free (table : AliasTable) (base : String)
    (room : table.counter base + table.defined.length + 1 < UInt32.size) :
    ∃ tries ≤ table.defined.length + 1, ∃ index : UInt32,
      (∀ count last, Search table.defined base (.ofNat (table.counter base)) count last ↔
        count = tries ∧ last = index) ∧
      IsLeast (freeAfter table.defined base (table.counter base)) index.toNat ∧
      (table.fresh base).1 = candidate base index.toNat ∧
      (table.fresh base).2.counter base = index.toNat ∧
      ∀ other ≠ base, (table.fresh base).2.counter other = table.counter other := by
  have least := isLeast_nextIndex table base
  have bound := nextIndex_le table base
  have start : (UInt32.ofNat (table.counter base)).toNat = table.counter base :=
    UInt32.toNat_ofNat_of_lt' (by omega)
  have stop : (UInt32.ofNat (table.nextIndex base)).toNat = table.nextIndex base :=
    UInt32.toNat_ofNat_of_lt' (by omega)
  have later := counter_lt_nextIndex table base
  refine ⟨table.nextIndex base - table.counter base, by omega, .ofNat (table.nextIndex base), ?_⟩
  rw [stop]
  refine ⟨?_, least, rfl, fresh_counter_self table base, fun _ => fresh_counter_of_ne table base⟩
  intro count last
  rw [search_iff, start, ← UInt32.toNat_inj, stop]
  constructor
  · rintro ⟨found, moved⟩
    have same := found.unique least
    omega
  · rintro ⟨rfl, same⟩
    rw [same]
    exact ⟨least, by omega⟩

/-- The third and the fourth candidate of `r1` are defined after the second one has been generated,
so that the fifth one comes next. -/
def crowdedTable : AliasTable :=
  empty.after [.define "r1", .fresh "r1", .define "r14", .define "r13"]

theorem fresh_takes_least_free_crowdedTable :
    crowdedTable.counter "r1" + crowdedTable.defined.length + 1 < UInt32.size ∧
    Search crowdedTable.defined "r1" 2 3 5 ∧ 3 ≤ crowdedTable.defined.length + 1 ∧
    (crowdedTable.fresh "r1").1 = "r15" ∧ (crowdedTable.fresh "r1").2.counter "r1" = 5 := by
  have room : crowdedTable.counter "r1" + crowdedTable.defined.length + 1 < UInt32.size := by
    decide +kernel
  have search : Search crowdedTable.defined "r1" 2 3 5 :=
    .taken (by decide) (by decide +kernel) (.taken (by decide) (by decide +kernel)
      (.free (by decide) (by decide +kernel)))
  obtain ⟨tries, few, index, ends, -, name, counter, -⟩ :=
    fresh_takes_least_free crowdedTable "r1" room
  obtain ⟨rfl, rfl⟩ := (ends 3 5).1 search
  exact ⟨room, search, few, name, counter⟩

end PlainVerse.AliasTable
