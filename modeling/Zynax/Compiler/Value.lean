import Zynax.Golang.JsonRoundTrip
import Zynax.Golang.Numbers

namespace Zynax.Compiler

open Golang

/-!
# Values of a manifest

What `yaml.v3` stores in an `interface{}` of a decoded manifest, and what `json.Marshal` makes
of it when the compiler writes an input template.
-/

abbrev NumLit : Type := { l : List Char // Json.isNumber l = true }

inductive Value where
  | null
  | bool (b : Bool)
  | int (n : Int)
  /-- a finite `float64`, by the text `json.Marshal` writes for it -/
  | float (lit : NumLit)
  /-- `NaN`, `+Inf` or `-Inf` -/
  | nonFinite (text : String)
  | str (s : String)
  /-- a timestamp, by the text `Time.MarshalJSON` writes; none where it reports an error -/
  | time (rfc3339 : Option String)
  | list (elems : List Value)
  | map (fields : List (String × Value))
  /-- `map[interface{}]interface{}`, which a mapping with a key that is no string decodes to -/
  | anyMap

namespace Value

def goType : Value → String
  | .null => "<nil>"
  | .bool _ => "bool"
  | .int _ => "int"
  | .float _ | .nonFinite _ => "float64"
  | .str _ => "string"
  | .time _ => "time.Time"
  | .list _ => "[]interface \x7b\x7d"
  | .map _ => "map[string]interface \x7b\x7d"
  | .anyMap => "map[interface \x7b\x7d]interface \x7b\x7d"

def asString : Value → Option String
  | .str s => some s
  | _ => none

def collect : List (String × Except String Json) → Except String (List (String × Json))
  | [] => .ok []
  | (k, e) :: fs =>
    match e with
    | .error err => .error err
    | .ok j =>
      match collect fs with
      | .error err => .error err
      | .ok js => .ok ((k, j) :: js)

mutual

def toJson : Value → Except String Json
  | .null => .ok .null
  | .bool b => .ok (.bool b)
  | .int n => .ok (.num (decimalInt n))
  | .float l => .ok (.num l.1)
  | .nonFinite t => .error ("json: unsupported value: " ++ t)
  | .str s => .ok (.str s)
  | .time (some t) => .ok (.str t)
  | .time none =>
    .error ("json: error calling MarshalJSON for type time.Time: " ++
      "Time.MarshalJSON: timezone hour outside of range [0,23]")
  | .list xs =>
    match toJsonElems xs with
    | .error err => .error err
    | .ok js => .ok (.arr js)
  | .map fs =>
    -- a map is written with its keys sorted, and the first key that fails stops it
    match collect ((toJsonFields fs).insertionSort (fun a b => a.1 ≤ b.1)) with
    | .error err => .error err
    | .ok js => .ok (.obj js)
  | .anyMap => .error "json: unsupported type: map[interface \x7b\x7d]interface \x7b\x7d"

def toJsonElems : List Value → Except String (List Json)
  | [] => .ok []
  | x :: xs =>
    match toJson x with
    | .error err => .error err
    | .ok j =>
      match toJsonElems xs with
      | .error err => .error err
      | .ok js => .ok (j :: js)

def toJsonFields : List (String × Value) → List (String × Except String Json)
  | [] => []
  | (k, v) :: fs => (k, toJson v) :: toJsonFields fs

end

theorem nestedInduction {motive : Value → Prop} (null : motive .null) (bool : ∀ b, motive (.bool b))
    (int : ∀ n, motive (.int n)) (float : ∀ l, motive (.float l))
    (nonFinite : ∀ t, motive (.nonFinite t)) (str : ∀ s, motive (.str s))
    (time : ∀ t, motive (.time t)) (list : ∀ xs, (∀ x ∈ xs, motive x) → motive (.list xs))
    (map : ∀ fs, (∀ f ∈ fs, motive f.2) → motive (.map fs)) (anyMap : motive .anyMap) (v : Value) :
    motive v := by
  refine @Value.rec motive (fun xs => ∀ x ∈ xs, motive x) (fun fs => ∀ f ∈ fs, motive f.2)
    (fun f => motive f.2) null bool int float nonFinite str time list map anyMap ?_ ?_ ?_ ?_ ?_ v
  · simp
  · grind
  · simp
  · grind
  · simp

variable {xs : List Value} {fs : List (String × Value)} {j : Json}

theorem toJsonElems_eq_ok_iff {js : List Json} :
    toJsonElems xs = .ok js ↔ xs.map toJson = js.map .ok := by
  induction xs generalizing js with
  | nil =>
    rw [toJsonElems, List.map_nil, Except.ok.injEq, eq_comm (b := js), eq_comm (b := js.map _),
      List.map_eq_nil_iff]
  | cons x xs ih =>
    rw [toJsonElems]
    cases hx : x.toJson with
    | error err => cases js <;> simp [hx]
    | ok j =>
      cases hxs : toJsonElems xs with
      | error err =>
        -- the rest was not written, so it is not the image of a list of documents
        have hno : ∀ js : List Json, xs.map toJson ≠ js.map .ok := fun js h => by
          grind
        cases js with
        | nil => simp
        | cons j' js => simp [hno js]
      | ok js' =>
        rw [List.map_cons, hx, ih.mp hxs]
        cases js with
        | nil => simp
        | cons j' js =>
          grind

theorem toJson_list_eq_ok_iff :
    (Value.list xs).toJson = .ok j ↔ ∃ js, j = .arr js ∧ xs.map toJson = js.map .ok := by
  simp only [← toJsonElems_eq_ok_iff]
  rw [toJson]
  grind

theorem collect_eq_ok_iff {fs : List (String × Except String Json)} {js : List (String × Json)} :
    collect fs = .ok js ↔ fs = js.map (fun p => (p.1, .ok p.2)) := by
  induction fs generalizing js with
  | nil => cases js <;> simp [collect]
  | cons f fs ih =>
    obtain ⟨k, e⟩ := f
    cases e with
    | error err => cases js <;> simp [collect]
    | ok j =>
      rw [collect]
      cases js with
      | nil => cases collect fs <;> simp
      | cons p js =>
        grind

theorem toJsonFields_eq_map (fs : List (String × Value)) :
    toJsonFields fs = fs.map (fun f => (f.1, f.2.toJson)) := by
  induction fs with
  | nil => rfl
  | cons f fs ih => rw [toJsonFields, ih, List.map_cons]

theorem toJson_map_eq_ok_iff :
    (Value.map fs).toJson = .ok j ↔ ∃ js, j = .obj js ∧
      (fs.map (fun f => (f.1, f.2.toJson))).insertionSort (fun a b => a.1 ≤ b.1) =
        js.map (fun p => (p.1, .ok p.2)) := by
  simp only [← toJsonFields_eq_map, ← collect_eq_ok_iff]
  rw [toJson]
  grind

theorem toJson_map_eq_ok (h : (Value.map fs).toJson = .ok j) :
    ∃ js, j = .obj js ∧
      (js.map (fun p => (p.1, Except.ok p.2))).Perm (fs.map (fun f => (f.1, f.2.toJson))) := by
  obtain ⟨js, hj, hjs⟩ := toJson_map_eq_ok_iff.mp h
  refine ⟨js, hj, ?_⟩
  rw [← hjs]
  exact List.perm_insertionSort _ _

theorem mem_of_toJson_map {js : List (String × Json)}
    (h : (js.map (fun p => (p.1, Except.ok p.2))).Perm (fs.map (fun f => (f.1, f.2.toJson))))
    {p : String × Json} : p ∈ js ↔ ∃ f ∈ fs, f.1 = p.1 ∧ f.2.toJson = .ok p.2 := by
  have hinj : Function.Injective (fun p : String × Json => (p.1, (Except.ok p.2 : Except String Json))) := by
    rintro ⟨k, j⟩ ⟨k', j'⟩ heq
    simpa using heq
  rw [← List.mem_map_of_injective hinj, h.mem_iff, List.mem_map]
  simp

theorem mem_of_toJson_list {js : List Json} (h : xs.map toJson = js.map .ok)
    : j ∈ js ↔ ∃ x ∈ xs, x.toJson = .ok j := by
  rw [← List.mem_map_of_injective (f := (.ok : Json → Except String Json)) fun _ _ => Except.ok.inj,
    ← h, List.mem_map]

/-! ### What is written -/

theorem numbersOk_of_toJson (v : Value) : ∀ j : Json, v.toJson = .ok j → j.NumbersOk := by
  induction v using nestedInduction with
  | int n =>
    intro j h
    cases h
    exact isNumber_decimalInt n
  | float l =>
    intro j h
    cases h
    exact l.2
  | list xs ih =>
    intro j h
    obtain ⟨js, rfl, hjs⟩ := toJson_list_eq_ok_iff.mp h
    refine Json.numbersOkElems_iff.mpr fun j hj => ?_
    obtain ⟨x, hx, hxj⟩ := (mem_of_toJson_list hjs).mp hj
    exact ih x hx j hxj
  | map fs ih =>
    intro j h
    obtain ⟨js, rfl, hperm⟩ := toJson_map_eq_ok h
    refine Json.numbersOkFields_iff.mpr fun p hp => ?_
    obtain ⟨f, hf, -, hv⟩ := (mem_of_toJson_map hperm).mp hp
    exact ih f hf p.2 hv
  | time t =>
    intro j h
    cases t with
    | none => cases h
    | some t =>
      cases h
      exact True.intro
  | _ =>
    intro j h
    cases h <;> exact True.intro

/-! ### What can be written -/

mutual

def AllStrings (P : String → Prop) : Value → Prop
  | .str s => P s
  | .time (some t) => P t
  | .list xs => AllStringsElems P xs
  | .map fs => AllStringsFields P fs
  | _ => True

def AllStringsElems (P : String → Prop) : List Value → Prop
  | [] => True
  | x :: xs => AllStrings P x ∧ AllStringsElems P xs

def AllStringsFields (P : String → Prop) : List (String × Value) → Prop
  | [] => True
  | (k, v) :: fs => P k ∧ AllStrings P v ∧ AllStringsFields P fs

end

variable {P : String → Prop}

theorem allStringsElems_iff :
    AllStringsElems P xs ↔ ∀ x ∈ xs, x.AllStrings P := by
  induction xs with
  | nil => simp [AllStringsElems]
  | cons x xs ih => simp [AllStringsElems, ih]

theorem allStringsFields_iff :
    AllStringsFields P fs ↔ ∀ f ∈ fs, P f.1 ∧ f.2.AllStrings P := by
  induction fs with
  | nil => simp [AllStringsFields]
  | cons f fs ih => simp [AllStringsFields, ih, and_assoc]

theorem allStrings_toJson (v : Value) : ∀ j : Json, v.toJson = .ok j →
    (j.AllStrings P ↔ v.AllStrings P) := by
  induction v using nestedInduction with
  | str s =>
    intro j h
    cases h
    rfl
  | time t =>
    intro j h
    cases t with
    | none => cases h
    | some t =>
      cases h
      rfl
  | list xs ih =>
    intro j h
    obtain ⟨js, rfl, hjs⟩ := toJson_list_eq_ok_iff.mp h
    show Json.AllStringsElems P js ↔ AllStringsElems P xs
    rw [Json.allStringsElems_iff, allStringsElems_iff]
    constructor
    · intro hP x hx
      obtain ⟨j, hj, hxj⟩ := List.mem_map.mp (hjs ▸ List.mem_map_of_mem hx)
      grind
    · intro hP j hj
      obtain ⟨x, hx, hxj⟩ := (mem_of_toJson_list hjs).mp hj
      grind
  | map fs ih =>
    intro j h
    obtain ⟨js, rfl, hperm⟩ := toJson_map_eq_ok h
    show Json.AllStringsFields P js ↔ AllStringsFields P fs
    rw [Json.allStringsFields_iff, allStringsFields_iff]
    constructor
    · intro hP f hf
      obtain ⟨p, hp, heq⟩ := List.mem_map.mp
        (hperm.mem_iff.mpr (List.mem_map_of_mem (f := fun f => (f.1, f.2.toJson)) hf))
      grind
    · intro hP p hp
      obtain ⟨f, hf, hk, hv⟩ := (mem_of_toJson_map hperm).mp hp
      grind
  | _ =>
    intro j h
    cases h <;> exact Iff.rfl

mutual

def depth : Value → Nat
  | .list xs => depthElems xs + 1
  | .map fs => depthFields fs + 1
  | _ => 0

def depthElems : List Value → Nat
  | [] => 0
  | x :: xs => max (depth x) (depthElems xs)

def depthFields : List (String × Value) → Nat
  | [] => 0
  | (_, v) :: fs => max (depth v) (depthFields fs)

end

theorem depthElems_le_iff {n : Nat} :
    depthElems xs ≤ n ↔ ∀ x ∈ xs, x.depth ≤ n := by
  induction xs with
  | nil => simp [depthElems]
  | cons x xs ih => simp [depthElems, ih]

theorem depthFields_le_iff {n : Nat} :
    depthFields fs ≤ n ↔ ∀ f ∈ fs, f.2.depth ≤ n := by
  induction fs with
  | nil => simp [depthFields]
  | cons f fs ih => simp [depthFields, ih]

theorem depth_of_toJson (v : Value) : ∀ j : Json, v.toJson = .ok j → j.depth = v.depth := by
  induction v using nestedInduction with
  | time t =>
    intro j h
    cases t with
    | none => cases h
    | some t =>
      cases h
      rfl
  | list xs ih =>
    intro j h
    obtain ⟨js, rfl, hjs⟩ := toJson_list_eq_ok_iff.mp h
    rw [Json.depth, depth]
    -- the two maxima have the same upper bounds
    congr 1
    apply eq_of_forall_ge_iff
    intro n
    rw [Json.depthElems_le_iff, depthElems_le_iff]
    constructor
    · intro hn x hx
      have hmem : x.toJson ∈ js.map .ok := hjs ▸ List.mem_map_of_mem hx
      grind
    · intro hn j hj
      obtain ⟨x, hx, hxj⟩ := (mem_of_toJson_list hjs).mp hj
      grind
  | map fs ih =>
    intro j h
    obtain ⟨js, rfl, hperm⟩ := toJson_map_eq_ok h
    rw [Json.depth, depth]
    congr 1
    apply eq_of_forall_ge_iff
    intro n
    rw [Json.depthFields_le_iff, depthFields_le_iff]
    constructor
    · intro hn f hf
      have hmem : (f.1, f.2.toJson) ∈ js.map (fun p => (p.1, Except.ok p.2)) :=
        hperm.mem_iff.mpr (List.mem_map.mpr ⟨f, hf, rfl⟩)
      grind
    · intro hn p hp
      obtain ⟨f, hf, -, hv⟩ := (mem_of_toJson_map hperm).mp hp
      grind
  | _ =>
    intro j h
    cases h <;> rfl

mutual

def encodable : Value → Bool
  | .nonFinite _ => false
  | .time none => false
  | .anyMap => false
  | .list xs => encodableElems xs
  | .map fs => encodableFields fs
  | _ => true

def encodableElems : List Value → Bool
  | [] => true
  | x :: xs => encodable x && encodableElems xs

def encodableFields : List (String × Value) → Bool
  | [] => true
  | (_, v) :: fs => encodable v && encodableFields fs

end

theorem encodableElems_iff :
    encodableElems xs = true ↔ ∀ x ∈ xs, x.encodable = true := by
  induction xs with
  | nil => simp [encodableElems]
  | cons x xs ih => simp [encodableElems, ih]

theorem encodableFields_iff :
    encodableFields fs = true ↔ ∀ f ∈ fs, f.2.encodable = true := by
  induction fs with
  | nil => simp [encodableFields]
  | cons f fs ih => simp [encodableFields, ih]

theorem exists_eq_map_iff {α β : Type} {f : α → β} {l : List β} :
    (∃ m : List α, l = m.map f) ↔ ∀ x ∈ l, ∃ a, x = f a := by
  have hrange : l ∈ Set.range (List.map f) ↔ ∀ x ∈ l, x ∈ Set.range f := by
    rw [Set.range_list_map]
    rfl
  grind

theorem exists_toJson_list_iff :
    (∃ j, (Value.list xs).toJson = .ok j) ↔ ∀ x ∈ xs, ∃ j, x.toJson = .ok j := by
  have hlist : (∃ j, (Value.list xs).toJson = .ok j) ↔ ∃ js : List Json, xs.map toJson = js.map .ok := by
    simp only [toJson_list_eq_ok_iff]
    simp
  rw [hlist, exists_eq_map_iff, List.forall_mem_map]

theorem exists_toJson_map_iff :
    (∃ j, (Value.map fs).toJson = .ok j) ↔ ∀ f ∈ fs, ∃ j, f.2.toJson = .ok j := by
  have hmap : (∃ j, (Value.map fs).toJson = .ok j) ↔ ∃ js : List (String × Json),
      (fs.map (fun f => (f.1, f.2.toJson))).insertionSort (fun a b => a.1 ≤ b.1) =
        js.map (fun p => (p.1, .ok p.2)) := by
    simp only [toJson_map_eq_ok_iff]
    simp
  rw [hmap, exists_eq_map_iff]
  simp only [List.mem_insertionSort, List.forall_mem_map, Prod.mk.injEq, Prod.exists, exists_and_left,
    exists_eq_left']

/-- **`json.Marshal` writes exactly the encodable values.** -/
theorem exists_toJson_iff (v : Value) : (∃ j, v.toJson = .ok j) ↔ v.encodable = true := by
  induction v using nestedInduction with
  | time t => cases t <;> simp [toJson, encodable]
  | list xs ih =>
    rw [exists_toJson_list_iff, encodable, encodableElems_iff]
    exact forall₂_congr ih
  | map fs ih =>
    rw [exists_toJson_map_iff, encodable, encodableFields_iff]
    exact forall₂_congr ih
  | _ => simp [toJson, encodable]

end Value

end Zynax.Compiler
