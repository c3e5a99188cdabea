import Recast.Proofs.Normal
import Recast.Proofs.Worth
import Recast.Translate

/-!
Identity keys against strict equality. Without NaN two values have the same key exactly when they
are strictly equal (`strictEq_eq`). So looking a key up in the index of an array's identifiers finds
the first that is strictly equal.
-/

namespace Recast

namespace Value

/-! ## Strict equality of JSON values -/

theorem int_eq_normal_double {n : Int} {d : Double} :
    Key.int n = (double d).normal ↔ Double.eqInt n d = true := by
  rw [Double.eqInt_iff, normal]
  cases d.toInt? <;> simp [eq_comm]

theorem normal_double_inj {a b : Double} :
    (double a).normal = (double b).normal ∧ a ≠ .nan ↔ Double.numEq a b = true := by
  by_cases ha : a = .nan
  · simp [ha, Double.numEq]
  · rw [Double.numEq_iff_toInt? ha, normal, normal]
    cases hm : a.toInt? with
    | some m => cases b.toInt? <;> simp [eq_comm, ha]
    | none =>
      cases hn : b.toInt? with
      | some n =>
        have hne : a ≠ b := by
          rintro rfl
          rw [hm] at hn
          cases hn
        simp [hne]
      | none => simp [ha]

/-- Whether a value has no members. -/
def isScalar : Value → Bool
  | .array .. | .object _ => false
  | _ => true

@[simp] theorem nanFree_double {d : Double} : (double d).nanFree = true ↔ d ≠ .nan := by
  cases d <;> simp [nanFree, all, isNan]

theorem scalarEq_eq {a b : Value} (ha : a.isJson = true) (hb : b.isJson = true)
    (scalar : a.isScalar = true) :
    scalarEq a b = decide (a.normal = b.normal ∧ a.nanFree = true) := by
  rw [Bool.eq_iff_iff, decide_eq_true_iff]
  cases a with
  | absent | foreign => cases ha
  | array | object => cases scalar
  | double d =>
    rw [nanFree_double]
    cases b with
    | absent | foreign => cases hb
    | double e => exact normal_double_inj.symm
    | int n =>
      have keys : (double d).normal = (int n).normal ↔ Double.eqInt n d = true :=
        eq_comm.trans int_eq_normal_double
      rw [keys]
      cases d <;> simp [scalarEq, Double.eqInt, Double.isFinite]
    | null | bool | string | array | object =>
      simp only [scalarEq, normal]
      cases d.toInt? <;> simp
  | int n =>
    cases b with
    | double e =>
      have keys : (int n).normal = (double e).normal ↔ Double.eqInt n e = true :=
        int_eq_normal_double
      rw [keys]
      simp [scalarEq, nanFree, all, isNan]
    | _ => simp [scalarEq, normal, nanFree, all, isNan]
  | null | bool | string =>
    cases b with
    | double e =>
      simp only [scalarEq, normal]
      cases e.toInt? <;> simp
    | absent | foreign => cases hb
    | _ => simp [scalarEq, normal, nanFree, all, isNan]

theorem strictEq_scalar {a b : Value} (ha : a.isJson = true) (hb : b.isJson = true)
    (scalar : a.isScalar = true) : strictEq a b = .ok (scalarEq a b) := by
  cases a with
  | absent | foreign => cases ha
  | array | object => cases scalar
  | _ =>
    cases b with
    | absent | foreign => cases hb
    | _ => rfl

/-- The key of an array is no other value's. -/
theorem normal_array_ne {fixed : Bool} {items : List Value} {b : Value}
    (hb : ∀ f others, b ≠ .array f others) : (array fixed items).normal ≠ b.normal := by
  cases b with
  | array f others => exact absurd rfl (hb f others)
  | double d =>
    simp only [normal]
    cases d.toInt? <;> simp
  | _ => simp [normal]

/-- The key of an object is no other value's. -/
theorem normal_object_ne {fields : Fields} {b : Value} (hb : ∀ others, b ≠ .object others) :
    (object fields).normal ≠ b.normal := by
  cases b with
  | object others => exact absurd rfl (hb others)
  | double d =>
    simp only [normal]
    cases d.toInt? <;> simp
  | _ => simp [normal]

theorem nanFree_array {fixed : Bool} {items : List Value} :
    (array fixed items).nanFree = true ↔ ∀ v ∈ items, v.nanFree = true := by
  simp [nanFree, all_array_iff, isNan]

theorem nanFree_object {fields : Fields} :
    (object fields).nanFree = true ↔ ∀ f ∈ fields, f.2.nanFree = true := by
  simp [nanFree, all_object_iff, isNan]

mutual

/-- **Two recursions, one equality.** On JSON values strict equality always has an answer: the
values are equal if they have the same key and no NaN occurs in them. -/
theorem strictEq_eq : (a b : Value) → a.isJson = true → b.isJson = true →
    strictEq a b = .ok (decide (a.normal = b.normal ∧ a.nanFree = true))
  | .absent, _, ha, _ | .foreign _ _, _, ha, _ => by cases ha
  | .null, _, ha, hb | .bool _, _, ha, hb | .int _, _, ha, hb | .double _, _, ha, hb
  | .string _, _, ha, hb => by rw [strictEq_scalar ha hb rfl, scalarEq_eq ha hb rfl]
  | .array fixed items, b, ha, hb => by
    by_cases kinds : ∃ f others, b = .array f others
    · obtain ⟨f, others, rfl⟩ := kinds
      simp only [strictEq, normal, Key.array.injEq, normalItems_eq_map, nanFree_array]
      split
      · rename_i length
        exact strictEqItems_eq items others length (all_array_iff.mp ha).2 (all_array_iff.mp hb).2
      · rename_i length
        have differ : items.map normal ≠ others.map normal := by
          intro same
          exact length (by simpa using congrArg List.length same)
        simp [differ]
    · have other : ∀ f others, b ≠ .array f others := fun f others h => kinds ⟨f, others, h⟩
      rw [decide_eq_false fun h => normal_array_ne other h.1]
      cases b with
      | absent | foreign => cases hb
      | array f others => exact absurd rfl (other f others)
      | _ => rfl
  | .object fields, b, ha, hb => by
    by_cases kinds : ∃ others, b = .object others
    · obtain ⟨others, rfl⟩ := kinds
      obtain ⟨distinct, ha⟩ := all_object_iff.mp ha
      obtain ⟨distinct', hb⟩ := all_object_iff.mp hb
      simp only [isProper, decide_eq_true_eq] at distinct distinct'
      simp only [strictEq, normal, Key.object.injEq, normalFields_eq_iff distinct,
        fields_perm_iff distinct distinct', nanFree_object]
      split
      · rename_i settled
        obtain ⟨length, has⟩ : fields.length = others.length ∧
            ∀ f ∈ fields, Fields.has f.1 others = true := by simpa using settled
        rw [strictEqFields_eq fields others has ha hb]
        simp only [length, true_and]
        congr 2
        exact propext ⟨fun h => ⟨⟨has, h.1⟩, h.2⟩, fun h => ⟨h.1.2, h.2⟩⟩
      · rename_i unsettled
        have unequal : ¬ (fields.length = others.length ∧
            ∀ f ∈ fields, Fields.has f.1 others = true) := by simpa using unsettled
        rw [decide_eq_false fun h => unequal ⟨h.1.1, h.1.2.1⟩]
    · have other : ∀ others, b ≠ .object others := fun others h => kinds ⟨others, h⟩
      rw [decide_eq_false fun h => normal_object_ne other h.1]
      cases b with
      | absent | foreign => cases hb
      | object others => exact absurd rfl (other others)
      | _ => rfl

theorem strictEqItems_eq : (items others : List Value) → items.length = others.length →
    (∀ v ∈ items, v.isJson = true) → (∀ v ∈ others, v.isJson = true) →
    strictEqItems items others = .ok (decide
      (items.map normal = others.map normal ∧ ∀ v ∈ items, v.nanFree = true))
  | [], [], _, _, _ => by simp [strictEqItems]
  | a :: rest, b :: others, length, ha, hb => by
    obtain ⟨ja, ha⟩ := List.forall_mem_cons.mp ha
    obtain ⟨jb, hb⟩ := List.forall_mem_cons.mp hb
    rw [strictEqItems, strictEq_eq a b ja jb]
    by_cases same : a.normal = b.normal ∧ a.nanFree = true
    · have tail := strictEqItems_eq rest others (by simpa using length) ha hb
      simp only [same, List.map_cons, List.forall_mem_cons, true_and, and_true, List.cons.injEq,
        decide_true, bind, Except.bind, if_true]
      exact tail
    · have differ : ¬ ((a :: rest).map normal = (b :: others).map normal ∧
          ∀ v ∈ a :: rest, v.nanFree = true) := by
        rintro ⟨keys, free⟩
        exact same ⟨(List.cons.inj keys).1, free a List.mem_cons_self⟩
      rw [decide_eq_false same, decide_eq_false differ]
      rfl

theorem strictEqFields_eq : (fields others : List (String × Value)) →
    (∀ f ∈ fields, Fields.has f.1 others = true) → (∀ f ∈ fields, f.2.isJson = true) →
    (∀ f ∈ others, f.2.isJson = true) →
    strictEqFields fields others = .ok (decide
      ((∀ f ∈ fields, f.2.normal = (Fields.get f.1 others).normal) ∧
        ∀ f ∈ fields, f.2.nanFree = true))
  | [], _, _, _, _ => by simp [strictEqFields]
  | (name, a) :: rest, others, has, ha, hb => by
    obtain ⟨found, has⟩ := List.forall_mem_cons.mp has
    obtain ⟨ja, ha⟩ := List.forall_mem_cons.mp ha
    have jb := hb _ (Fields.mem_of_has found)
    rw [strictEqFields, strictEq_eq a _ ja jb]
    by_cases same : a.normal = (Fields.get name others).normal ∧ a.nanFree = true
    · have tail := strictEqFields_eq rest others has ha hb
      simp only [same, List.forall_mem_cons, true_and, decide_true, bind, Except.bind, if_true]
      exact tail
    · have differ : ¬ ((∀ f ∈ (name, a) :: rest,
          f.2.normal = (Fields.get f.1 others).normal) ∧
          ∀ f ∈ (name, a) :: rest, f.2.nanFree = true) := by
        rintro ⟨keys, free⟩
        exact same ⟨keys _ List.mem_cons_self, free _ List.mem_cons_self⟩
      rw [decide_eq_false same, decide_eq_false differ]
      rfl

end

/-! ## What lookups find -/

theorem key_of_isPart {v : Value} (h : v.isPart = true) : v.key = .ok v.normal := by
  rcases isPart_iff.mp h with rfl | json
  · rfl
  · exact key_eq_normal v json

theorem normal_ne_absent {v : Value} (h : v.isJson = true) : v.normal ≠ .absent := by
  cases v with
  | absent | foreign => cases h
  | double d =>
    simp only [normal]
    cases d.toInt? <;> simp
  | _ => simp [normal]

theorem strictEq_of_isPart {a b : Value} (ha : a.isPart = true) (hb : b.isPart = true) :
    strictEq a b = .ok (decide (a.normal = b.normal ∧ a.nanFree = true)) := by
  rcases isPart_iff.mp ha with rfl | ja <;> rcases isPart_iff.mp hb with rfl | jb
  · rfl
  · rw [decide_eq_false fun h => normal_ne_absent jb h.1.symm]
    cases b with
    | absent | foreign => cases jb
    | _ => rfl
  · rw [decide_eq_false fun h => normal_ne_absent ja h.1]
    cases a with
    | absent | foreign => cases ja
    | _ => rfl
  · exact strictEq_eq a b ja jb

theorem strictEq_iff {a b : Value} (ha : a.isPart = true) (hb : b.isPart = true)
    (nan : a.nanFree = true) : strictEq a b = .ok true ↔ a.normal = b.normal := by
  simp [strictEq_of_isPart ha hb, nan]

end Value

namespace Translate

open Value

/-- The identity key of an element's identifier, if it has one. -/
def keyOf? (idField : String) (element : Value) : Option Key :=
  (idOf? idField element).bind fun id => id.key.toOption

theorem isJson_of_idOf? {idField : String} {element id : Value} (h : element.isJson = true)
    (hid : idOf? idField element = some id) : id.isJson = true := by
  cases element with
  | object fields =>
    simp only [idOf?] at hid
    split at hid
    · rename_i has
      cases hid
      exact (all_object_iff.mp h).2 _ (Fields.mem_of_has has)
    · cases hid
  | _ => cases hid

theorem keyOf?_eq {idField : String} {element : Value} (h : element.isJson = true) :
    keyOf? idField element = (idOf? idField element).map normal := by
  cases hid : idOf? idField element with
  | none => simp [keyOf?, hid]
  | some id =>
    simp [keyOf?, hid, key_eq_normal id (isJson_of_idOf? h hid), Except.toOption]

/-- An index can be built where each identifier has a key. -/
theorem exists_idIndex (idField : String) (n : Nat) {others : List Value}
    (keyed : ∀ v ∈ others, ∀ id, idOf? idField v = some id → ∃ k, id.key = .ok k) :
    ∃ index, idIndex idField n others = .ok index := by
  induction others generalizing n with
  | nil => exact ⟨[], rfl⟩
  | cons element rest ih =>
    obtain ⟨first, later⟩ := List.forall_mem_cons.mp keyed
    obtain ⟨index, built⟩ := ih (n + 1) later
    rw [idIndex, built]
    split
    · exact ⟨index, rfl⟩
    · rename_i id identified
      obtain ⟨k, key⟩ := first id identified
      exact ⟨(k, n) :: index, by rw [key]; rfl⟩

/-- The index of identifiers finds the first element whose identifier has a key. -/
theorem lookup_of_idIndex {idField : String} {n : Nat} {others : List Value}
    {index : List (Key × Nat)} (built : idIndex idField n others = .ok index) (k : Key) :
    index.lookup k = (others.findIdx? fun o => keyOf? idField o == some k).map (n + ·) := by
  induction others generalizing n index with
  | nil =>
    cases built
    rfl
  | cons element rest ih =>
    have shift : ((rest.findIdx? fun o => keyOf? idField o == some k).map fun i => i + 1).map
        (n + ·) = (rest.findIdx? fun o => keyOf? idField o == some k).map (n + 1 + ·) := by
      rw [Option.map_map]
      congr 1
      funext i
      simp only [Function.comp]
      omega
    rw [idIndex] at built
    cases identified : idOf? idField element with
    | none =>
      rw [identified] at built
      have unkeyed : (keyOf? idField element == some k) = false := by simp [keyOf?, identified]
      rw [List.findIdx?_cons, unkeyed, ih built]
      exact shift.symm
    | some id =>
      rw [identified] at built
      obtain ⟨key, keyed, next⟩ := bind_eq_ok.mp built
      obtain ⟨later, indexed, whole⟩ := bind_eq_ok.mp next
      cases whole
      have own : keyOf? idField element = some key := by
        simp [keyOf?, identified, keyed, Except.toOption]
      rw [List.findIdx?_cons, List.lookup_cons, own, ih indexed]
      by_cases same : k = key
      · simp [same]
      · have differ : (k == key) = false := by simp [same]
        have differ' : (some key == some k) = false := by simp [Ne.symm same]
        rw [differ, differ']
        exact shift.symm

/-- JSON elements have an index. -/
theorem lookup_idIndex (idField : String) (n : Nat) {others : List Value}
    (json : ∀ v ∈ others, v.isJson = true) :
    ∃ index, idIndex idField n others = .ok index ∧
      ∀ k, index.lookup k =
        (others.findIdx? fun o => keyOf? idField o == some k).map (n + ·) := by
  obtain ⟨index, built⟩ := exists_idIndex idField n fun v mem id identified =>
    ⟨_, key_eq_normal id (isJson_of_idOf? (json v mem) identified)⟩
  exact ⟨index, built, lookup_of_idIndex built⟩

theorem findIdx?_iff_item {test : Value → Bool} (absent : test .absent = false)
    {others : List Value} {j : Nat} :
    others.findIdx? test = some j ↔
      test (item j others) = true ∧ ∀ i < j, test (item i others) = false := by
  rw [List.findIdx?_eq_some_iff_getElem]
  constructor
  · rintro ⟨inside, found, before⟩
    have at' : ∀ i, (h : i < others.length) → item i others = others[i] := by
      intro i h
      simp [item_eq_getElem?, h]
    refine ⟨by rw [at' j inside]; exact found, fun i hi => ?_⟩
    rw [at' i (by omega)]
    exact Bool.eq_false_iff.mpr (before i hi)
  · rintro ⟨found, before⟩
    have inside : j < others.length := by
      apply lt_length_of_item
      intro outside
      rw [outside, absent] at found
      cases found
    have at' : ∀ i, (h : i < others.length) → item i others = others[i] := by
      intro i h
      simp [item_eq_getElem?, h]
    refine ⟨inside, by rw [← at' j inside]; exact found, fun i hi => ?_⟩
    rw [← at' i (by omega), before i hi]
    exact Bool.false_ne_true

/-- A position is that of the first element whose identifier is strictly equal to `id`. -/
def FirstEqual (idField : String) (id : Value) (others : List Value) (position : Nat) : Prop :=
  (∃ x, idOf? idField (item position others) = some x ∧ strictEq id x = .ok true) ∧
    ∀ earlier < position, ∀ x, idOf? idField (item earlier others) = some x →
      strictEq id x = .ok false

theorem firstEqual_iff {idField : String} {id : Value} {others : List Value}
    (json : ∀ v ∈ others, v.isJson = true) (hid : id.isJson = true) (nan : id.nanFree = true)
    (position : Nat) :
    FirstEqual idField id others position ↔
      (others.findIdx? fun o => keyOf? idField o == some id.normal) = some position := by
  have part : id.isPart = true := isPart_of_isJson hid
  -- Past the end there is nothing, which has no identifier.
  have answer : ∀ i x, idOf? idField (item i others) = some x →
      keyOf? idField (item i others) = some x.normal ∧
        strictEq id x = .ok (decide (id.normal = x.normal)) := by
    intro i x hx
    rcases item_all json i with outside | inside
    · rw [outside] at hx
      cases hx
    · have hx' := isJson_of_idOf? inside hx
      refine ⟨by simp [keyOf?_eq inside, hx], ?_⟩
      rw [strictEq_of_isPart part (isPart_of_isJson hx')]
      simp [nan]
  rw [findIdx?_iff_item rfl, FirstEqual]
  refine and_congr ?_ (forall_congr' fun i => forall_congr' fun _ => ?_)
  · cases hx : idOf? idField (item position others) with
    | none => simp [keyOf?, hx]
    | some x =>
      obtain ⟨key, equal⟩ := answer position x hx
      simp only [Option.some.injEq, exists_eq_left', key, equal, Except.ok.injEq,
        decide_eq_true_eq, beq_iff_eq]
      exact eq_comm
  · cases hx : idOf? idField (item i others) with
    | none => simp [keyOf?, hx]
    | some x =>
      obtain ⟨key, equal⟩ := answer i x hx
      simp only [Option.some.injEq, forall_eq', key, equal, Except.ok.injEq,
        decide_eq_false_iff_not, beq_eq_false_iff_ne, ne_eq]
      exact not_congr eq_comm

end Translate

namespace Value

/-- **Keys are strict equality.** Without NaN two values have the same key exactly when they are
strictly equal, so strict equality is an equivalence, and looking a key up in the index of an
array's identifiers finds the first that is strictly equal. With NaN too, what is strictly equal has
the same key. -/
theorem key_refines_strictEq :
    (∀ a b : Value, a.isPart = true → b.isPart = true → a.nanFree = true → b.nanFree = true →
      ∃ j k, a.key = .ok j ∧ b.key = .ok k ∧ strictEq a b = .ok (decide (j = k))) ∧
    (Equivalence fun a b : {v : Value // v.isPart = true ∧ v.nanFree = true} =>
      strictEq a.1 b.1 = .ok true) ∧
    (∀ (idField : String) (others : List Value) (id : Value), (∀ v ∈ others, v.isJson = true) →
      id.isJson = true → id.nanFree = true →
      ∃ index k, Translate.idIndex idField 0 others = .ok index ∧ id.key = .ok k ∧
        ∀ position, index.lookup k = some position ↔
          Translate.FirstEqual idField id others position) ∧
    (∀ a b : Value, a.isPart = true → b.isPart = true → strictEq a b = .ok true →
      ∃ k, a.key = .ok k ∧ b.key = .ok k) := by
  refine ⟨?_, ⟨?_, ?_, ?_⟩, ?_, ?_⟩
  · intro a b ha hb nan _
    refine ⟨a.normal, b.normal, key_of_isPart ha, key_of_isPart hb, ?_⟩
    simp [strictEq_of_isPart ha hb, nan]
  · rintro ⟨a, ha, nan⟩
    exact (strictEq_iff ha ha nan).mpr rfl
  · rintro ⟨a, ha, nan⟩ ⟨b, hb, nan'⟩ equal
    exact (strictEq_iff hb ha nan').mpr ((strictEq_iff ha hb nan).mp equal).symm
  · rintro ⟨a, ha, nan⟩ ⟨b, hb, nan'⟩ ⟨c, hc, _⟩ equal equal'
    have first := (strictEq_iff ha hb nan).mp equal
    have second := (strictEq_iff hb hc nan').mp equal'
    exact (strictEq_iff ha hc nan).mpr (first.trans second)
  · intro idField others id json hid nan
    obtain ⟨index, built, found⟩ := Translate.lookup_idIndex idField 0 json
    refine ⟨index, id.normal, built, key_eq_normal id hid, fun position => ?_⟩
    rw [Translate.firstEqual_iff json hid nan, found]
    simp
  · intro a b ha hb equal
    rw [strictEq_of_isPart ha hb] at equal
    have same : a.normal = b.normal ∧ a.nanFree = true := by simpa using equal
    exact ⟨a.normal, key_of_isPart ha, same.1 ▸ key_of_isPart hb⟩

/-- Neither the order of fields nor the spelling of one as a double tells values apart. -/
theorem key_refines_strictEq_spelling :
    (object [("a", int 1), ("b", .null)]).isPart = true ∧
    (object [("b", .null), ("a", double (.finite false 1023 0))]).isPart = true ∧
    (object [("a", int 1), ("b", .null)]).nanFree = true ∧
    (object [("b", .null), ("a", double (.finite false 1023 0))]).nanFree = true ∧
    ∃ j k, (object [("a", int 1), ("b", .null)]).key = .ok j ∧
      (object [("b", .null), ("a", double (.finite false 1023 0))]).key = .ok k ∧
      strictEq (object [("a", int 1), ("b", .null)])
        (object [("b", .null), ("a", double (.finite false 1023 0))]) = .ok (decide (j = k)) ∧
      j = k := by
  have part : (object [("a", int 1), ("b", .null)]).isPart = true := by decide
  have part' : (object [("b", .null), ("a", double (.finite false 1023 0))]).isPart = true := by
    decide
  have nan : (object [("a", int 1), ("b", .null)]).nanFree = true := by decide
  have nan' : (object [("b", .null), ("a", double (.finite false 1023 0))]).nanFree = true := by
    decide
  obtain ⟨j, k, hj, hk, equal⟩ := key_refines_strictEq.1 _ _ part part' nan nan'
  have settled : strictEq (object [("a", int 1), ("b", .null)])
      (object [("b", .null), ("a", double (.finite false 1023 0))]) = .ok true := by rfl
  refine ⟨part, part', nan, nan', j, k, hj, hk, equal, ?_⟩
  rw [settled] at equal
  simpa using equal

end Value

end Recast
