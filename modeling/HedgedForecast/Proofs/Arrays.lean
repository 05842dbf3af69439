/-! # Changing one item

What becomes of the items of an array and of the number of those that pass a test, when one of them is changed or
another one is added; and of what is found under a name when a list loses what is under other names.
-/

namespace HedgedForecast

variable {α : Type}

theorem getElem?_modify_self {items : Array α} {index : Nat} {item : α} (change : α → α)
    (present : items[index]? = some item) : (items.modify index change)[index]? = some (change item) := by
  rw [Array.getElem?_modify, if_pos rfl, present]
  rfl

theorem getElem?_modify_of_ne (items : Array α) {index place : Nat} (change : α → α) (distinct : index ≠ place) :
    (items.modify index change)[place]? = items[place]? := by
  rw [Array.getElem?_modify, if_neg distinct]

/-- An item of the array afterwards is an old one, or what became of the one that was changed. -/
theorem getElem?_modify_cases {items : Array α} {index place : Nat} {change : α → α} {item' : α}
    (present : (items.modify index change)[place]? = some item') :
    ∃ item, items[place]? = some item ∧ (index ≠ place ∧ item' = item ∨ index = place ∧ item' = change item) := by
  rw [Array.getElem?_modify] at present
  split at present
  · next same =>
    obtain ⟨item, found, rfl⟩ := Option.map_eq_some_iff.mp present
    exact ⟨item, found, .inr ⟨same, rfl⟩⟩
  · next distinct => exact ⟨item', present, .inl ⟨distinct, rfl⟩⟩

/-- What is kept by a change and true of an item is true of it afterwards. -/
theorem of_getElem?_modify {items : Array α} {index place : Nat} {change : α → α} {property : α → Prop}
    (before : ∀ item, items[place]? = some item → property item) (kept : ∀ item, property item → property (change item))
    (item : α) (present : (items.modify index change)[place]? = some item) : property item := by
  obtain ⟨old, there, ⟨_, rfl⟩ | ⟨_, rfl⟩⟩ := getElem?_modify_cases present
  · exact before item there
  · exact kept old (before old there)

theorem getElem?_push_of_some {items : Array α} {place : Nat} {item : α} (new : α)
    (present : items[place]? = some item) : (items.push new)[place]? = some item := by
  obtain ⟨bound, _⟩ := Array.getElem?_eq_some_iff.mp present
  rw [Array.getElem?_push, if_neg (Nat.ne_of_lt bound), present]

theorem getElem?_push_cases {items : Array α} {place : Nat} {new item : α}
    (present : (items.push new)[place]? = some item) :
    place ≠ items.size ∧ items[place]? = some item ∨ place = items.size ∧ item = new := by
  rw [Array.getElem?_push] at present
  split at present
  · next last => exact .inr ⟨last, (Option.some.inj present).symm⟩
  · next other => exact .inl ⟨other, present⟩

/-- Changing the item that was just added is adding the changed one. -/
theorem modify_push_size (items : Array α) (item : α) (change : α → α) :
    (items.push item).modify items.size change = items.push (change item) := by
  ext place bound _
  · simp
  · by_cases last : place = items.size
    · simp [Array.getElem_modify, last]
    · have old : place < items.size := by
        simp only [Array.size_modify, Array.size_push] at bound
        omega
      simp [Array.getElem_modify, Array.getElem_push, Ne.symm last, old]

/-- An array with an item in each place of another one is at least as long. -/
theorem size_le_of_present {β : Type} {items : Array α} {others : Array β}
    (present : ∀ (place : Nat) (item : α), items[place]? = some item → ∃ other, others[place]? = some other) :
    items.size ≤ others.size := by
  refine Nat.le_of_not_lt fun longer => ?_
  obtain ⟨other, there⟩ := present others.size _ (Array.getElem?_eq_getElem longer)
  exact absurd (Array.getElem?_eq_some_iff.mp there).1 (Nat.lt_irrefl _)

theorem modify_of_none {items : Array α} {index : Nat} (change : α → α) (absent : items[index]? = none) :
    items.modify index change = items := by
  ext i _ bound
  · simp
  · rw [Array.getElem_modify, if_neg]
    rintro rfl
    simp [bound] at absent

theorem modify_eq_set {items : Array α} {index : Nat} {item : α} (change : α → α)
    (present : items[index]? = some item) :
    ∃ bound : index < items.size, items[index] = item ∧ items.modify index change = items.set index (change item) := by
  obtain ⟨bound, rfl⟩ := Array.getElem?_eq_some_iff.mp present
  refine ⟨bound, rfl, ?_⟩
  ext i _ _
  · simp
  · rw [Array.getElem_modify, Array.getElem_set]
    split
    · next same => subst same; rfl
    · rfl

/-- When one item is changed, only its own test counts. -/
theorem countP_modify {items : Array α} {index : Nat} {item : α} (test : α → Bool) (change : α → α)
    (present : items[index]? = some item) :
    (items.modify index change).countP test + (if test item then 1 else 0) =
      items.countP test + if test (change item) then 1 else 0 := by
  obtain ⟨bound, rfl, set⟩ := modify_eq_set change present
  rw [set, Array.countP_set bound]
  split
  · next was =>
    have positive : 0 < items.countP test := Array.countP_pos_iff.mpr ⟨_, Array.getElem_mem bound, was⟩
    omega
  · omega

theorem countP_modify_same (items : Array α) (index : Nat) {test : α → Bool} {change : α → α}
    (same : ∀ item, items[index]? = some item → test (change item) = test item) :
    (items.modify index change).countP test = items.countP test := by
  cases present : items[index]? with
  | none => rw [modify_of_none change present]
  | some item =>
    have counted := countP_modify test change present
    rw [same item present] at counted
    omega

theorem countP_modify_succ {items : Array α} {index : Nat} {item : α} {test : α → Bool} {change : α → α}
    (present : items[index]? = some item) (was : test item = true) (gone : test (change item) = false) :
    (items.modify index change).countP test + 1 = items.countP test := by
  have counted := countP_modify test change present
  rw [was, gone] at counted
  exact counted

theorem mem_modify {items : Array α} {index : Nat} {change : α → α} {item' : α}
    (member : item' ∈ items.modify index change) :
    ∃ item ∈ items, item' = item ∨ items[index]? = some item ∧ item' = change item := by
  obtain ⟨place, present⟩ := Array.mem_iff_getElem?.mp member
  obtain ⟨item, there, ⟨_, rfl⟩ | ⟨rfl, rfl⟩⟩ := getElem?_modify_cases present
  · exact ⟨item', Array.mem_of_getElem? there, .inl rfl⟩
  · exact ⟨item, Array.mem_of_getElem? there, .inr ⟨there, rfl⟩⟩

/-- What is found under a name is not lost with other names. -/
theorem lookup_filter {keep : String × α → Bool} {name : String} (kept : ∀ item, keep (name, item) = true)
    (entries : List (String × α)) : (entries.filter keep).lookup name = entries.lookup name := by
  induction entries with
  | nil => rfl
  | cons entry rest ih =>
    obtain ⟨own, item⟩ := entry
    by_cases same : name = own
    · obtain rfl := same
      rw [List.filter_cons, if_pos (kept item), List.lookup_cons_self, List.lookup_cons_self]
    · have other : (name == own) = false := beq_false_of_ne same
      rw [List.filter_cons]
      split
      · rw [List.lookup_cons, List.lookup_cons, other]
        exact ih
      · rw [List.lookup_cons, other]
        exact ih

end HedgedForecast
