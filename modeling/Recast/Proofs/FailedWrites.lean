import Recast.Proofs.Numerals
import Recast.Proofs.Update
import Recast.Rule.Basic

/-!
When a write fails, and what it leaves behind. Whether a write succeeds can be told from the tree
before it: no index on the way may be past the end of the list that the tree has there, where
anything but a list counts as empty (`isSome_update_iff`). A write that fails has replaced
containers on its way, but at a path that parts from its own at an accessor of the same kind it
leaves what was there (`resolve_put_of_diverge`). Main statement: `write_fails_exactly`.
-/

namespace Recast

namespace Value

/-! ## When a write succeeds -/

/-- How many positions of a value can be replaced: the number of a list's items, and none of
anything else. -/
def extent : Value → Nat
  | .array false items => items.length
  | _ => 0

/-- No index of a path is past the end of what the value has there. -/
def Bounded (p : List Element) (v : Value) : Prop :=
  ∀ k n, p[k]? = some (.index n) → n ≤ (v.resolve (p.take k)).extent

theorem bounded_cons {e : Element} {rest : List Element} {v : Value} :
    Bounded (e :: rest) v ↔ (∀ n, e = .index n → n ≤ v.extent) ∧ Bounded rest (v.select e) := by
  constructor
  · intro h
    exact ⟨fun n same => h 0 n (by simp [same]), fun k n same => h (k + 1) n (by simpa using same)⟩
  · rintro ⟨here, below⟩ k n same
    cases k with
    | zero => exact here n (by simpa using same)
    | succ k => exact below k n (by simpa using same)

/-- What is entered for an accessor admits it, unless it is an index past the end of what was
there. -/
theorem refusal?_enter {e : Element} {old : Value} :
    (enter e old).refusal? e = none ↔ ∀ n, e = .index n → n ≤ old.extent := by
  cases e with
  | field name =>
    obtain ⟨fields, entered⟩ := isObject_iff.mp (suits_enter (.field name) old)
    simp [entered, refusal?]
  | index n =>
    cases old with
    | array fixed items =>
      cases fixed with
      | true => simp [enter, suits, isList, empty, list, refusal?, extent]
      | false => simp [enter, suits, isList, refusal?, extent]
    | _ => simp [enter, suits, isList, empty, list, refusal?, extent]

/-- **When an update succeeds.** The condition is about the tree before it, though what is entered
on the way may be new. -/
theorem isSome_update_iff (v : Value) {p : List Element} {old : Value} (loose : Loose p old) :
    (update v p old).isSome = true ↔ Bounded p old := by
  induction p generalizing old with
  | nil => simp [update, Bounded]
  | cons e rest ih =>
    have below : (enter e old).member e = old.select e := by
      rw [member_eq_select (suits_enter e old), select_enter loose.1 rfl]
    rw [bounded_cons, ← refusal?_enter, ← ih loose.2, update, below]
    cases (enter e old).refusal? e <;> simp

/-! ## What a write leaves behind -/

theorem diverge_cons {e f : Element} {p q : List Element} :
    Diverge (e :: p) (f :: q) ↔ (e ≠ f ∧ e.isIndex = f.isIndex) ∨ (e = f ∧ Diverge p q) := by
  constructor
  · rintro ⟨common, a, b, rest, others, left, right, differ, kind⟩
    cases common with
    | nil =>
      cases left
      cases right
      exact Or.inl ⟨differ, kind⟩
    | cons g common =>
      cases left
      cases right
      exact Or.inr ⟨rfl, common, a, b, rest, others, rfl, rfl, differ, kind⟩
  · rintro (⟨differ, kind⟩ | ⟨rfl, common, a, b, rest, others, rfl, rfl, differ, kind⟩)
    · exact ⟨[], e, f, p, q, rfl, rfl, differ, kind⟩
    · exact ⟨e :: common, a, b, rest, others, rfl, rfl, differ, kind⟩

theorem not_diverge_nil {p : List Element} : ¬ Diverge p [] := by
  rintro ⟨common, _, _, _, _, _, empty, _⟩
  simp at empty

/-- Entering a container for an accessor changes nothing at a path that parts from it, or from a
path that goes on with it, at an accessor of the same kind. -/
theorem resolve_enter_of_diverge {e : Element} {rest q : List Element} {old : Value}
    (apart : Diverge (e :: rest) q) (loose : Loose q old) :
    (enter e old).resolve q = old.resolve q ∧ Loose q (enter e old) := by
  cases q with
  | nil => exact absurd apart not_diverge_nil
  | cons f q =>
    have kind : e.isIndex = f.isIndex := by
      rcases diverge_cons.mp apart with ⟨_, kind⟩ | ⟨rfl, _⟩
      · exact kind
      · rfl
    exact resolve_of_select (select_enter loose.1 kind) (isFixed_of_suits (suits_enter e old)) loose

theorem put_of_refusal {first : Element} {rest : List Element} {v container : Value} {cause : Cause}
    (refused : container.refusal? first = some cause) :
    put first rest v container = (container, some cause) := by
  cases rest <;> simp only [put, refused]

/-- What is placed in a container below an accessor changes as little as what was entered there. -/
theorem resolve_place_of_diverge {first next : Element} {rest q : List Element}
    {inner container : Value} (admitted : container.refusal? first = none)
    (apart : Diverge (first :: next :: rest) q) (loose : Loose q container)
    (inside : ∀ q, Diverge (next :: rest) q → Loose q (enter next (container.select first)) →
      inner.resolve q = (enter next (container.select first)).resolve q ∧ Loose q inner) :
    (container.place first inner).resolve q = container.resolve q ∧
      Loose q (container.place first inner) := by
  have suits := suits_of_refusal? admitted
  cases q with
  | nil => exact absurd apart not_diverge_nil
  | cons f q =>
    rcases diverge_cons.mp apart with ⟨differ, kind⟩ | ⟨rfl, below⟩
    · exact resolve_of_select (select_place_of_ne admitted differ kind _)
        (isFixed_of_suits (suits_place suits _)) loose
    · -- The rest of the write starts from a container that may be new, so two frames compose.
      obtain ⟨same, loose'⟩ := resolve_enter_of_diverge below loose.2
      obtain ⟨kept, after⟩ := inside q below loose'
      simp only [resolve, Loose, select_place _ _ _ admitted]
      exact ⟨kept.trans same, isFixed_of_suits (suits_place suits _), after⟩

/-- **Frame, also for failed writes.** A write, whether it succeeds or fails, changes nothing at a
path that parts from its own at an accessor of the same kind. -/
theorem resolve_put_of_diverge {first : Element} {rest q : List Element} {v container : Value}
    (apart : Diverge (first :: rest) q) (loose : Loose q container) :
    (put first rest v container).1.resolve q = container.resolve q ∧
      Loose q (put first rest v container).1 := by
  induction rest generalizing first q container with
  | nil =>
    cases refused : container.refusal? first with
    | some cause =>
      rw [put_of_refusal refused]
      exact ⟨rfl, loose⟩
    | none =>
      have written : put first [] v container = (container.place first v, none) := by
        simp [put, refused]
      have updated := (put_ok_iff.mp written).2
      rw [written]
      exact resolve_update_of_diverge updated apart loose
  | cons next rest ih =>
    cases refused : container.refusal? first with
    | some cause =>
      rw [put_of_refusal refused]
      exact ⟨rfl, loose⟩
    | none =>
      have placed : (put first (next :: rest) v container).1 =
          container.place first (put next rest v (enter next (container.select first))).1 := by
        simp only [put, refused, member_eq_select (suits_of_refusal? refused)]
        rfl
      rw [placed]
      exact resolve_place_of_diverge refused apart loose fun q => ih

/-- A write that ends where it would be noted changes as little. -/
theorem resolve_halt_of_diverge {first : Element} {rest q : List Element} {container : Value}
    (apart : Diverge (first :: rest) q) (loose : Loose q container) :
    (halt first rest container).resolve q = container.resolve q ∧
      Loose q (halt first rest container) := by
  induction rest generalizing first q container with
  | nil => exact ⟨rfl, loose⟩
  | cons next rest ih =>
    rw [halt]
    split
    · exact ⟨rfl, loose⟩
    · rename_i admitted
      rw [member_eq_select (suits_of_refusal? admitted)]
      dsimp only
      split
      · exact ⟨rfl, loose⟩
      · exact resolve_place_of_diverge admitted apart loose fun q => ih

/-! ## What a refusal says -/

theorem kind_of_refusal? {container : Value} {e : Element} {cause : Cause}
    (h : container.refusal? e = some cause) : cause.kind = .typeMismatch := by
  unfold refusal? at h
  split at h
  · cases h
  · cases h
    rfl
  · split at h <;> cases h
    rfl
  · cases h
    rfl

/-- The refusal of a short index, and that of a field, can be told. -/
theorem isTellable_of_refusal? {container : Value} {e : Element} {cause : Cause}
    (h : container.refusal? e = some cause) (short : e.isShort = true) :
    cause.isTellable = true := by
  unfold refusal? at h
  split at h
  · cases h
  · cases h
    rfl
  · split at h <;> cases h
    exact short
  · cases h
    rfl

/-- A write is refused at one of its accessors. -/
theorem refusal_of_put {first : Element} {rest : List Element} {v container : Value} {cause : Cause}
    (h : (put first rest v container).2 = some cause) :
    ∃ inner, ∃ e ∈ first :: rest, refusal? inner e = some cause := by
  induction rest generalizing first container with
  | nil =>
    unfold put at h
    split at h
    · rename_i refused
      cases h
      exact ⟨container, first, List.mem_cons_self, refused⟩
    · cases h
  | cons next rest ih =>
    unfold put at h
    split at h
    · rename_i refused
      cases h
      exact ⟨container, first, List.mem_cons_self, refused⟩
    · obtain ⟨inner, e, mem, refused⟩ := ih h
      exact ⟨inner, e, List.mem_cons_of_mem first mem, refused⟩

/-- The failure of a write is a fault at its path, unless the path has an index that is too long to
be written. -/
theorem refused_cases {path : Path} {cause : Cause}
    (far : cause.isTellable = false → path.elements.all Element.isShort = false) :
    refused path cause = .ofCause cause (some path.text) ∨
      refused path cause = .unwritable ∧ path.elements.all Element.isShort = false := by
  unfold refused
  cases told : cause.isTellable && path.isTellable with
  | true => exact Or.inl rfl
  | false =>
    refine Or.inr ⟨rfl, ?_⟩
    rcases Bool.and_eq_false_iff.mp told with untold | unshown
    · exact far untold
    · exact (Bool.or_eq_false_iff.mp unshown).2

/-- **How a write fails.** -/
theorem failure_of_write {tree v : Value} {path : Path} {e : Failure}
    (h : (tree.write path v).failure? = some e) :
    (path.elements = [] ∧ e = .ofCause .rootWrite (some path.text)) ∨
    (∃ cause, cause.kind = .typeMismatch ∧ e = .ofCause cause (some path.text)) ∨
    e = .unwritable ∧ path.elements.all Element.isShort = false := by
  unfold write at h
  split at h
  · rename_i root
    cases h
    exact Or.inl ⟨root, rfl⟩
  · rename_i first rest elements
    split at h
    · cases h
    · rename_i after cause made
      cases h
      obtain ⟨inner, e, mem, refusal⟩ := refusal_of_put (congrArg Prod.snd made)
      have far : cause.isTellable = false → path.elements.all Element.isShort = false := by
        intro untold
        rw [elements, List.all_eq_false]
        refine ⟨e, mem, fun short => ?_⟩
        rw [isTellable_of_refusal? refusal short] at untold
        cases untold
      rcases refused_cases far with told | unshown
      · exact Or.inr (Or.inl ⟨cause, kind_of_refusal? refusal, told⟩)
      · exact Or.inr (Or.inr unshown)

/-- A write leaves what it put, or what there was when it ended early. -/
theorem tree_of_write (tree v : Value) {path : Path} {first : Element} {rest : List Element}
    (elements : path.elements = first :: rest) :
    (tree.write path v).tree = (put first rest v tree).1 ∨
      (tree.write path v).tree = halt first rest tree := by
  simp only [write, elements]
  split
  · rename_i made
    exact Or.inl (by rw [made])
  · rename_i made
    split
    · exact Or.inl (by rw [made])
    · exact Or.inr rfl

/-! ## Writes -/

/-- A tree admits a write at a path: it is an object if the path starts with a field, and a list if
it starts with an index; and each index of the path is at most the length of the list that the part
of the path before it finds, and 0 where that finds no list. -/
structure Admits (tree : Value) (p : List Element) : Prop where
  object : ∀ name, p[0]? = some (.field name) → tree.isObject = true
  list : ∀ n, p[0]? = some (.index n) → tree.isList = true
  short : ∀ k n items, p[k]? = some (.index n) → tree.resolve (p.take k) = .list items →
    n ≤ items.length
  fresh : ∀ k n, p[k]? = some (.index n) → (tree.resolve (p.take k)).isList = false → n = 0

theorem bounded_iff {p : List Element} {v : Value} :
    Bounded p v ↔
      (∀ k n items, p[k]? = some (.index n) → v.resolve (p.take k) = .list items →
        n ≤ items.length) ∧
      ∀ k n, p[k]? = some (.index n) → (v.resolve (p.take k)).isList = false → n = 0 := by
  have extent_other : ∀ {w : Value}, w.isList = false → w.extent = 0 := by
    intro w other
    cases w with
    | array fixed items =>
      cases fixed with
      | true => rfl
      | false => cases other
    | _ => rfl
  constructor
  · intro h
    refine ⟨fun k n items same found => ?_, fun k n same other => ?_⟩
    · simpa [found, Value.list, extent] using h k n same
    · simpa [extent_other other] using h k n same
  · rintro ⟨short, fresh⟩ k n same
    cases isList : (v.resolve (p.take k)).isList with
    | true =>
      have suits : (v.resolve (p.take k)).suits (.index n) = true := isList
      rcases suits_iff.mp suits with ⟨_, _, other, _⟩ | ⟨_, items, _, found⟩
      · cases other
      · rw [found]
        exact short k n items same found
    | false => simp [fresh k n same isList]

theorem admits_iff {tree : Value} {first : Element} {rest : List Element} :
    Admits tree (first :: rest) ↔ tree.suits first = true ∧ Bounded (first :: rest) tree := by
  rw [bounded_iff]
  constructor
  · intro h
    refine ⟨?_, h.short, h.fresh⟩
    cases first with
    | field name => exact h.object name rfl
    | index n => exact h.list n rfl
  · rintro ⟨suits, short, fresh⟩
    refine ⟨fun name same => ?_, fun n same => ?_, short, fresh⟩
    · cases same
      exact suits
    · cases same
      exact suits

/-- **When a write fails, and what it may touch.** Below the root, a write into a tree without fixed
arrays succeeds exactly when the tree, as it was before, admits it. Otherwise it fails with a type
mismatch at the path as it was written; only for a path with an index of too many digits the message
may be impossible to make. The tree that it leaves has what it had before at each path that parts
from the place written at accessors of the same kind. -/
theorem write_fails_exactly (tree v : Value) (path : Target) (pliant : tree.isPliant = true) :
    ((tree.write path v).failure? = none ↔ tree.Admits path.elements) ∧
    (∀ e, (tree.write path v).failure? = some e →
      (∃ f, e = .fault f ∧ f.kind = .typeMismatch ∧ f.path = some path.text) ∨
      e = .unwritable ∧ path.elements.all Element.isShort = false) ∧
    ∀ q, Diverge path.elements q → (tree.write path v).tree.resolve q = tree.resolve q := by
  obtain ⟨path, below⟩ := path
  cases elements : path.elements with
  | nil => simp [Path.isRoot, elements] at below
  | cons first rest =>
    have loose := loose_of_isPliant pliant
    have succeeds : (tree.write path v).failure? = none ↔
        tree.suits first = true ∧ (update v (first :: rest) tree).isSome = true := by
      rw [Option.isSome_iff_exists]
      simp only [write, elements]
      rcases made : put first rest v tree with ⟨after, failed⟩
      cases failed with
      | none =>
        obtain ⟨suits, updated⟩ := put_ok_iff.mp made
        exact iff_of_true rfl ⟨suits, after, updated⟩
      | some cause =>
        refine iff_of_false (Option.some_ne_none _) ?_
        rintro ⟨suits, after', updated⟩
        cases made.symm.trans (put_ok_iff.mpr ⟨suits, updated⟩)
    simp only [Target.elements, elements]
    refine ⟨?_, fun e failed => ?_, fun q apart => ?_⟩
    · rw [succeeds, isSome_update_iff v (loose _), admits_iff]
    · rcases failure_of_write failed with ⟨root, _⟩ | ⟨cause, mismatch, rfl⟩ | ⟨rfl, long⟩
      · cases elements.symm.trans root
      · exact Or.inl ⟨_, rfl, mismatch, rfl⟩
      · exact Or.inr ⟨rfl, elements ▸ long⟩
    · rcases tree_of_write tree v elements with put | halted
      · rw [put]
        exact (resolve_put_of_diverge apart (loose q)).1
      · rw [halted]
        exact (resolve_halt_of_diverge apart (loose q)).1

/-- The row that is missing cannot be written; the object on the way to it is gone, but the rows
beside it stay. -/
theorem write_fails_exactly_row :
    let tree : Value := object [("rows", list [list [int 7], object [("x", int 1)]])]
    let path : Target := ⟨⟨[.field "rows", .index 1, .index 2], "rows[1][2]"⟩, rfl⟩
    tree.isPliant = true ∧ ¬ tree.Admits path.elements ∧
    (∃ f, (tree.write path null).failure? = some (.fault f) ∧ f.kind = .typeMismatch ∧
      f.path = some "rows[1][2]") ∧
    (tree.write path null).tree = object [("rows", list [list [int 7], list []])] ∧
    (tree.write path null).tree.resolve [.field "rows", .index 0, .index 0] = int 7 := by
  intro tree path
  have pliant : tree.isPliant = true := by decide
  obtain ⟨succeeds, fails, frame⟩ := write_fails_exactly tree null path pliant
  have failed : (tree.write path null).failure? =
      some (.ofCause (.indexPastEnd 2 0) (some "rows[1][2]")) := by decide +kernel
  have left : (tree.write path null).tree = object [("rows", list [list [int 7], list []])] := rfl
  have apart : Diverge path.elements [.field "rows", .index 0, .index 0] :=
    ⟨[.field "rows"], .index 1, .index 0, _, _, rfl, rfl, by decide, rfl⟩
  refine ⟨pliant, fun admits => ?_, ?_, left, frame _ apart⟩
  · cases failed.symm.trans (succeeds.mpr admits)
  · rcases fails _ failed with ⟨f, same, mismatch, named⟩ | ⟨other, _⟩
    · exact ⟨f, failed.trans (congrArg some same), mismatch, named⟩
    · cases other

/-- An index that is too long to be written is past the end of the empty list, and no message says
so. -/
theorem write_far_index {n : Nat} (long : Text.Numeral.isWritable n = false) (raw : String)
    (v : Value) : ¬ n ≤ ([] : List Value).length ∧
      ((list []).write ⟨[.index n], raw⟩ v).failure? = some .unwritable := by
  have past : ¬ n ≤ ([] : List Value).length := by
    rw [List.length_nil, Nat.le_zero]
    rintro rfl
    cases long
  have refusal : (list []).refusal? (.index n) = some (.indexPastEnd n 0) := if_neg past
  refine ⟨past, ?_⟩
  simp only [write, put_of_refusal refusal, refused, Cause.isTellable, long, Bool.false_and,
    Bool.false_eq_true, if_false]

/-- The first number of 4301 digits as an index: the failure of the write is no type mismatch. -/
theorem write_misses_far_index :
    let tree : Value := list []
    let path : Target := ⟨⟨[.index (10 ^ Text.Numeral.limit)], "rows"⟩, rfl⟩
    tree.isPliant = true ∧ ¬ tree.Admits path.elements ∧
      (tree.write path null).failure? = some .unwritable ∧
      ¬ ∃ f, (tree.write path null).failure? = some (.fault f) := by
  intro tree path
  obtain ⟨past, failed⟩ := write_far_index Text.Numeral.isWritable_limit "rows" null
  refine ⟨rfl, fun admits => past (admits.short 0 _ [] rfl rfl), failed, ?_⟩
  rintro ⟨f, same⟩
  cases failed.symm.trans same

end Value

end Recast
