import Recast.Proofs.Throughout

/-!
Writing as an update of a tree. `update` describes a write that succeeds one accessor at a time,
without looking ahead; `write_ok_iff` ties it to writing. Its laws say what every path finds in the
new tree:

* `resolve_update`: at the path written and below it, the value written;
* `suits_resolve_update`: on the way there, a container for the next accessor;
* `resolve_update_of_diverge`: at a path that parts from it at an accessor of the same kind, what
  was there before;
* `resolve_update_of_clash`: at a path that parts from it at an accessor of the other kind, nothing.
-/

namespace Recast

/-- Two paths first differ where both have a field or both have an index. -/
def Diverge (p q : List Element) : Prop :=
  ∃ common e f rest others, p = common ++ e :: rest ∧ q = common ++ f :: others ∧
    e ≠ f ∧ e.isIndex = f.isIndex

/-- Two paths first differ where one has a field and the other an index. -/
def Clash (p q : List Element) : Prop :=
  ∃ common e f rest others, p = common ++ e :: rest ∧ q = common ++ f :: others ∧
    e.isIndex ≠ f.isIndex

namespace Value

/-! ## One step -/

/-- The container that a write enters for an accessor: the one that is there, or an empty one. -/
def enter (e : Element) (old : Value) : Value := if old.suits e then old else empty e

theorem enter_of_suits {e : Element} {old : Value} (h : old.suits e = true) : enter e old = old := by
  simp [enter, h]

theorem suits_enter (e : Element) (old : Value) : (enter e old).suits e = true := by
  unfold enter
  split
  · assumption
  · cases e <;> rfl

theorem suits_of_refusal? {container : Value} {e : Element} (h : container.refusal? e = none) :
    container.suits e = true := by
  cases e with
  | field name => cases container <;> first | rfl | simp [refusal?] at h
  | index n =>
    cases container with
    | array fixed items => cases fixed <;> first | rfl | simp [refusal?] at h
    | _ => simp [refusal?] at h

/-- A container that suits a field is an object, and one that suits an index is a list. -/
theorem suits_iff {container : Value} {e : Element} :
    container.suits e = true ↔
      (∃ name fields, e = .field name ∧ container = .object fields) ∨
        ∃ n items, e = .index n ∧ container = .list items := by
  cases e with
  | field name => cases container <;> simp [suits, isObject]
  | index n =>
    cases container with
    | array fixed items => cases fixed <;> simp [suits, isList, list]
    | _ => simp [suits, isList, list]

/-- A value can be placed into an object, and into a list at a position that is not past its end. -/
theorem refusal?_eq_none_iff {container : Value} {e : Element} :
    container.refusal? e = none ↔
      (∃ name fields, e = .field name ∧ container = .object fields) ∨
        ∃ n items, e = .index n ∧ container = .list items ∧ n ≤ items.length := by
  constructor
  · intro admitted
    rcases suits_iff.mp (suits_of_refusal? admitted) with object | ⟨n, items, rfl, rfl⟩
    · exact Or.inl object
    · exact Or.inr ⟨n, items, rfl, rfl, by simpa [refusal?, list] using admitted⟩
  · rintro (⟨name, fields, rfl, rfl⟩ | ⟨n, items, rfl, rfl, inside⟩)
    · rfl
    · simp [refusal?, list, inside]

theorem member_eq_select {container : Value} {e : Element} (h : container.suits e = true) :
    container.member e = container.select e := by
  rcases suits_iff.mp h with ⟨name, fields, rfl, rfl⟩ | ⟨n, items, rfl, rfl⟩ <;> rfl

theorem suits_place {container : Value} {e : Element} (h : container.suits e = true) (x : Value) :
    (container.place e x).suits e = true := by
  rcases suits_iff.mp h with ⟨name, fields, rfl, rfl⟩ | ⟨n, items, rfl, rfl⟩ <;> rfl

theorem isFixed_of_suits {container : Value} {e : Element} (h : container.suits e = true) :
    container.isFixed = false := by
  rcases suits_iff.mp h with ⟨name, fields, rfl, rfl⟩ | ⟨n, items, rfl, rfl⟩ <;> rfl

theorem item_setItem_of_ne {n m : Nat} (hne : m ≠ n) (v : Value) (items : List Value)
    (hn : n ≤ items.length) : item m (setItem n v items) = item m items := by
  induction items generalizing n m with
  | nil =>
    obtain rfl : n = 0 := by simpa using hn
    cases m with
    | zero => exact absurd rfl hne
    | succ m => rfl
  | cons old rest ih =>
    cases n with
    | zero =>
      cases m with
      | zero => exact absurd rfl hne
      | succ m => rfl
    | succ n =>
      cases m with
      | zero => rfl
      | succ m =>
        have hlen : n ≤ rest.length := by simpa using hn
        simpa [setItem, item] using ih (by omega) hlen

theorem select_place_of_ne {container : Value} {e f : Element}
    (h : container.refusal? e = none) (hne : e ≠ f) (hkind : e.isIndex = f.isIndex) (x : Value) :
    (container.place e x).select f = container.select f := by
  rcases refusal?_eq_none_iff.mp h with ⟨name, fields, rfl, rfl⟩ | ⟨n, items, rfl, rfl, hn⟩
  · cases f with
    | field other =>
      have ho : other ≠ name := by
        rintro rfl
        exact hne rfl
      exact Fields.get_set_of_ne ho x fields
    | index m => simp [Element.isIndex] at hkind
  · cases f with
    | field other => simp [Element.isIndex] at hkind
    | index m =>
      have hm : m ≠ n := by
        rintro rfl
        exact hne rfl
      exact item_setItem_of_ne hm x items hn

/-- A container has no members for accessors of the other kind. -/
theorem select_of_clash {container : Value} {e f : Element} (h : container.suits e = true)
    (hkind : e.isIndex ≠ f.isIndex) : container.select f = .absent := by
  rcases suits_iff.mp h with ⟨name, fields, rfl, rfl⟩ | ⟨n, items, rfl, rfl⟩
  · cases f with
    | field other => exact absurd rfl hkind
    | index m => rfl
  · cases f with
    | field other => rfl
    | index m => exact absurd rfl hkind

/-- Entering a container keeps the members that the accessor's kind could reach, unless they were
in a fixed array. -/
theorem select_enter {e f : Element} {old : Value} (hold : old.isFixed = false)
    (hkind : e.isIndex = f.isIndex) : (enter e old).select f = old.select f := by
  unfold enter
  split
  · rfl
  · rename_i hsuits
    cases e with
    | field name =>
      cases f with
      | field other => cases old <;> first | rfl | simp [suits, isObject] at hsuits
      | index m => simp [Element.isIndex] at hkind
    | index n =>
      cases f with
      | field other => simp [Element.isIndex] at hkind
      | index m =>
        cases old with
        | array fixed items =>
          obtain rfl : fixed = false := hold
          simp [suits, isList] at hsuits
        | _ => rfl

/-! ## A whole write -/

/-- What stands in the place of `old` after a write at a path below it; nothing if an index on the
way is past the end. -/
def update (v : Value) : List Element → Value → Option Value
  | [], _ => some v
  | e :: rest, old =>
    match (enter e old).refusal? e with
    | some _ => none
    | none => (update v rest ((enter e old).member e)).map ((enter e old).place e)

theorem update_cons {v old new : Value} {e : Element} {rest : List Element} :
    update v (e :: rest) old = some new ↔
      (enter e old).refusal? e = none ∧
        ∃ x, update v rest ((enter e old).select e) = some x ∧ (enter e old).place e x = new := by
  rw [← member_eq_select (suits_enter e old)]
  cases h : (enter e old).refusal? e <;> simp [update, h]

theorem update_enter (v old : Value) (e : Element) (rest : List Element) :
    update v (e :: rest) (enter e old) = update v (e :: rest) old := by
  simp only [update, enter_of_suits (suits_enter e old)]

/-- A write below a container succeeds exactly when the container suits the first accessor and the
update from there succeeds. -/
theorem put_ok_iff {first : Element} {rest : List Element} {v container after : Value} :
    put first rest v container = (after, none) ↔
      container.suits first = true ∧ update v (first :: rest) container = some after := by
  induction rest generalizing first container after with
  | nil =>
    cases h : container.refusal? first with
    | some cause =>
      simp only [put, h, Prod.mk.injEq, reduceCtorEq, and_false, false_iff, not_and]
      intro hsuits
      simp [update, enter_of_suits hsuits, h]
    | none =>
      have hsuits := suits_of_refusal? h
      simp [put, update, enter_of_suits hsuits, h, hsuits]
  | cons next rest ih =>
    cases h : container.refusal? first with
    | some cause =>
      simp only [put, h, Prod.mk.injEq, reduceCtorEq, and_false, false_iff, not_and]
      intro hsuits
      simp [update, enter_of_suits hsuits, h]
    | none =>
      have hsuits := suits_of_refusal? h
      have entered : put next rest v (enter next (container.member first)) =
          put next rest v (if (container.member first).suits next then container.member first
            else empty next) := rfl
      rw [update]
      simp only [put, h, ← entered, enter_of_suits hsuits, hsuits, true_and, Option.map_eq_some_iff,
        Prod.mk.injEq]
      rw [← update_enter]
      constructor
      · rintro ⟨placed, succeeded⟩
        exact ⟨_, (ih.mp (Prod.ext rfl succeeded)).2, placed⟩
      · rintro ⟨x, updated, placed⟩
        have written := ih.mpr ⟨suits_enter next _, updated⟩
        rw [written]
        exact ⟨placed, rfl⟩

/-- The outcome of a write below the root is told by what it puts. -/
theorem outcome_write {tree v : Value} {path : Path} {first : Element} {rest : List Element}
    (elements : path.elements = first :: rest) :
    (tree.write path v).outcome =
      match put first rest v tree with
      | (after, none) => .ok after
      | (_, some cause) => .error (refused path cause) := by
  simp only [write, elements]
  rcases put first rest v tree with ⟨after, failed⟩
  cases failed <;> rfl

theorem write_ok_iff {tree v after : Value} {path : Path} :
    (tree.write path v).outcome = .ok after ↔
      (∃ first rest, path.elements = first :: rest ∧ tree.suits first = true) ∧
        update v path.elements tree = some after := by
  cases hp : path.elements with
  | nil => simp [write, hp, Written.outcome]
  | cons first rest =>
    have ok : (tree.write path v).outcome = .ok after ↔
        put first rest v tree = (after, none) := by
      rw [outcome_write hp]
      rcases put first rest v tree with ⟨written, failed⟩
      cases failed <;> simp
    rw [ok, put_ok_iff]
    constructor
    · rintro ⟨suits, updated⟩
      exact ⟨⟨first, rest, rfl, suits⟩, updated⟩
    · rintro ⟨⟨_, _, same, suits⟩, updated⟩
      cases same
      exact ⟨suits, updated⟩

/-! ## What paths find afterwards -/

theorem resolve_update {v old new : Value} {p : List Element} (h : update v p old = some new)
    (r : List Element) : new.resolve (p ++ r) = v.resolve r := by
  induction p generalizing old new with
  | nil =>
    cases h
    rfl
  | cons e rest ih =>
    obtain ⟨admitted, x, below, rfl⟩ := update_cons.mp h
    simp only [List.cons_append, resolve, select_place _ _ _ admitted]
    exact ih below

theorem suits_resolve_update {v old new : Value} {q rest : List Element} {e : Element}
    (h : update v (q ++ e :: rest) old = some new) : (new.resolve q).suits e = true := by
  induction q generalizing old new with
  | nil =>
    obtain ⟨_, x, _, rfl⟩ := update_cons.mp h
    exact suits_place (suits_enter e old) x
  | cons f q ih =>
    obtain ⟨admitted, x, below, rfl⟩ := update_cons.mp h
    simp only [resolve, select_place _ _ _ admitted]
    exact ih below

/-- No fixed array stands on the way along a path. -/
def Loose : List Element → Value → Prop
  | [], _ => True
  | e :: rest, v => v.isFixed = false ∧ Loose rest (v.select e)

theorem loose_absent (p : List Element) : Loose p .absent := by
  induction p with
  | nil => trivial
  | cons e rest ih => exact ⟨rfl, by simpa using ih⟩

theorem loose_of_isPliant {v : Value} (h : v.isPliant = true) (p : List Element) : Loose p v := by
  induction p generalizing v with
  | nil => trivial
  | cons e rest ih =>
    refine ⟨by simpa using test_of_all h, ?_⟩
    rcases select_all h e with absent | found
    · rw [absent]
      exact loose_absent rest
    · exact ih found

theorem loose_update {v old new : Value} {p : List Element} (h : update v p old = some new) :
    Loose p new := by
  induction p generalizing old new with
  | nil => trivial
  | cons e rest ih =>
    obtain ⟨admitted, x, below, rfl⟩ := update_cons.mp h
    refine ⟨isFixed_of_suits (suits_place (suits_enter e old) x), ?_⟩
    rw [select_place _ _ _ admitted]
    exact ih below

/-- What one accessor selects settles what a path that starts with it finds. -/
theorem resolve_of_select {new old : Value} {e : Element} {q : List Element}
    (same : new.select e = old.select e) (unfixed : new.isFixed = false)
    (loose : Loose (e :: q) old) :
    new.resolve (e :: q) = old.resolve (e :: q) ∧ Loose (e :: q) new := by
  refine ⟨by rw [resolve, same, resolve], unfixed, ?_⟩
  rw [same]
  exact loose.2

/-- **Frame.** A write changes nothing at a path that parts from its own at an accessor of the same
kind, and puts no fixed array in that path's way. -/
theorem resolve_update_of_diverge {v old new : Value} {p q : List Element}
    (h : update v p old = some new) (apart : Diverge p q) (loose : Loose q old) :
    new.resolve q = old.resolve q ∧ Loose q new := by
  obtain ⟨common, e, f, rest, others, rfl, rfl, hne, hkind⟩ := apart
  induction common generalizing old new with
  | nil =>
    obtain ⟨admitted, x, _, rfl⟩ := update_cons.mp h
    have same : ((enter e old).place e x).select f = old.select f := by
      rw [select_place_of_ne admitted hne hkind, select_enter loose.1 hkind]
    exact resolve_of_select same (isFixed_of_suits (suits_place (suits_enter e old) x)) loose
  | cons g common ih =>
    obtain ⟨admitted, x, below, rfl⟩ := update_cons.mp h
    rw [select_enter loose.1 rfl] at below
    have kept := ih below loose.2
    simp only [List.cons_append, resolve, Loose, select_place _ _ _ admitted]
    exact ⟨kept.1, isFixed_of_suits (suits_place (suits_enter g old) x), kept.2⟩

theorem resolve_update_of_clash {v old new : Value} {p q : List Element}
    (h : update v p old = some new) (apart : Clash p q) : new.resolve q = .absent := by
  obtain ⟨common, e, f, rest, others, rfl, rfl, hkind⟩ := apart
  have suits := suits_resolve_update h
  rw [resolve_append, resolve, select_of_clash suits hkind, resolve_absent]

/-- **A write is an exact update.** In the tree that a successful write leaves, a path finds the
part of the value written that it reaches through the place written; a container where the place
lies further on; what it found before where it parts from the place at an accessor of the same kind;
and nothing where it parts from it at an accessor of the other kind. -/
theorem resolve_write (tree v after : Value) (path : Path) (q : List Element)
    (pliant : tree.isPliant = true) (written : (tree.write path v).outcome = .ok after) :
    (∀ r, q = path.elements ++ r → after.resolve q = v.resolve r) ∧
    (∀ name rest, path.elements = q ++ .field name :: rest → (after.resolve q).isObject = true) ∧
    (∀ n rest, path.elements = q ++ .index n :: rest → (after.resolve q).isList = true) ∧
    (Diverge path.elements q → after.resolve q = tree.resolve q) ∧
    (Clash path.elements q → after.resolve q = .absent) := by
  have updated := (write_ok_iff.mp written).2
  refine ⟨?_, ?_, ?_, ?_, ?_⟩
  · rintro r rfl
    exact resolve_update updated r
  · intro name rest further
    rw [further] at updated
    exact suits_resolve_update updated
  · intro n rest further
    rw [further] at updated
    exact suits_resolve_update updated
  · intro apart
    exact (resolve_update_of_diverge updated apart (loose_of_isPliant pliant q)).1
  · intro apart
    exact resolve_update_of_clash updated apart

/-- An item added to a list leaves its other items alone. -/
theorem resolve_write_tag :
    (object [("a", int 1), ("tags", list [int 7])]).isPliant = true ∧
    ((object [("a", int 1), ("tags", list [int 7])]).write
      ⟨[.field "tags", .index 1], "tags[1]"⟩ (bool true)).outcome =
        .ok (object [("a", int 1), ("tags", list [int 7, bool true])]) ∧
    (object [("a", int 1), ("tags", list [int 7, bool true])]).resolve [.field "tags", .index 0] =
      (object [("a", int 1), ("tags", list [int 7])]).resolve [.field "tags", .index 0] := by
  have pliant : (object [("a", int 1), ("tags", list [int 7])]).isPliant = true := by decide
  have written : ((object [("a", int 1), ("tags", list [int 7])]).write
      ⟨[.field "tags", .index 1], "tags[1]"⟩ (bool true)).outcome =
        .ok (object [("a", int 1), ("tags", list [int 7, bool true])]) := by rfl
  have apart : Diverge [.field "tags", .index 1] [.field "tags", .index 0] :=
    ⟨[.field "tags"], .index 1, .index 0, [], [], rfl, rfl, by decide, rfl⟩
  exact ⟨pliant, written, (resolve_write _ _ _ _ _ pliant written).2.2.2.1 apart⟩

end Value

end Recast
