import MappedSql.Bound
import MappedSql.Proofs.PathSteps

/-!
# Declared properties

The declared type at the end of a path is found by going from record type to record type; the value
there by going from record to record. A field that is not set reads as null, and null has no fields.
So the two ways go together up to the first field that is null: if it is the last of the path, the
value is null, and if the path goes on from it, there is no value.

The induction is on the steps of the path. As long as it goes on, the record at hand is one of the
type at hand.
-/

namespace MappedSql

namespace Argument

/-- Null, or a value of a type. A record is of its type when every declared field that is set is
null or of the declared type; any may be unset. -/
inductive Fits : ValueType → Argument → Prop
  | null {type : ValueType} {a : Argument} (h : a.isNull) : Fits type a
  | value {type : ValueType} {v : Value} (h : v.type = type) : Fits type (.value v)
  | list (items : List Argument) : Fits .list (.list items)
  | map (entries : List (String × Argument)) : Fits .map (.map entries)
  | object (a : Argument) : Fits .object a
  | record {name : String} {properties : List (String × ValueType)}
      {fields : List (String × Argument)}
      (h : ∀ field type a, RecordType.declared? ⟨name, properties⟩ field = some type →
        Entries.get? fields field = some a → Fits type a) :
      Fits (.record name properties) (.record ⟨name, properties⟩ fields)

/-- What a field holds: null where it is not set, and where there are no fields. -/
def field (a : Argument) (name : String) : Argument :=
  match a with
  | .record _ fields => (Entries.get? fields name).getD .null
  | _ => .null

def fieldAlong (a : Argument) (names : List String) : Argument :=
  names.foldl field a

/-- A field before the last one is null or unset. -/
def breaksOff (a : Argument) : List String → Bool
  | name :: next :: rest => (a.field name).isNull || (a.field name).breaksOff (next :: rest)
  | _ => false

section
variable {a : Argument} {r : RecordType} {fields : List (String × Argument)} {type : ValueType}
  {name : String} {s first : Step} {rest : List Step}

theorem Fits.of_forall
    (h : ∀ entry ∈ fields, ∀ type, r.declared? entry.1 = some type → Fits type entry.2) :
    Fits r.toValueType (.record r fields) := by
  refine .record fun name type a hdeclared hset => ?_
  obtain ⟨before, after, rfl, -⟩ := List.lookup_eq_some_iff.mp hset
  exact h (name, a) (by simp) type hdeclared

theorem Fits.record_cases (h : Fits r.toValueType a) :
    a.isNull ∨ ∃ fields, a = .record r fields := by
  generalize htype : r.toValueType = type at h
  cases h with
  | null h => exact .inl h
  | @value _ v h =>
    rw [← htype] at h
    cases v <;> cases h
  | record h =>
    cases htype
    exact .inr ⟨_, rfl⟩
  | _ => cases htype

theorem Fits.field (h : Fits r.toValueType (.record r fields))
    (hname : r.declared? name = some type) :
    Fits type ((Argument.record r fields).field name) := by
  cases h with
  | null h => cases h
  | record h =>
    change Fits type ((Entries.get? fields name).getD .null)
    cases hset : Entries.get? fields name with
    | none => exact .null rfl
    | some a => exact h name type a hname hset

theorem field_of_isNull (h : a.isNull) (name : String) : a.field name = .null := by
  cases a with
  | record => cases h
  | _ => rfl

theorem isNull_fieldAlong (h : a.isNull) (names : List String) : (a.fieldAlong names).isNull := by
  induction names generalizing a with
  | nil => exact h
  | cons name rest ih =>
    rw [fieldAlong, List.foldl_cons, field_of_isNull h, ← fieldAlong]
    exact ih rfl

theorem step?_declared (hname : s.name ≠ "") (hindex : s.index = none)
    (hdeclared : r.declared? s.name = some type) :
    (Argument.record r fields).step? s = some ((Argument.record r fields).field s.name) := by
  have hempty : s.name.isEmpty = false := by simpa using hname
  simp only [step?, hempty, Bool.false_eq_true, if_false, get?, hdeclared, Option.map_some, hindex,
    Option.bind_eq_bind, field]
  cases Entries.get? fields s.name <;> rfl

theorem step?_of_isNull (hname : s.name ≠ "") (h : a.isNull) : a.step? s = none := by
  have hempty : s.name.isEmpty = false := by simpa using hname
  simp only [step?, hempty, Bool.false_eq_true, if_false]
  cases a with
  | null => rfl
  | value => rfl
  | _ => cases h

theorem stepType?_of_index (hindex : s.index = none) : r.stepType? s = r.declared? s.name := by
  rw [RecordType.stepType?, hindex]
  cases r.declared? s.name <;> rfl

/-- Where a type is declared at the end of steps, there is a value of the type, unless the path goes
on from a field that is null. -/
theorem along?_declared (hfits : Fits r.toValueType (.record r fields))
    (hsteps : ∀ s ∈ first :: rest, s.name ≠ "" ∧ s.index = none)
    (htype : r.typeAlong? first rest = some type) :
    Fits type ((Argument.record r fields).fieldAlong ((first :: rest).map (·.name))) ∧
    (Argument.record r fields).along? (first :: rest) =
      if (Argument.record r fields).breaksOff ((first :: rest).map (·.name)) then none
      else some ((Argument.record r fields).fieldAlong ((first :: rest).map (·.name))) := by
  induction rest generalizing r fields first with
  | nil =>
    obtain ⟨⟨hname, hindex⟩, -⟩ := List.forall_mem_cons.mp hsteps
    rw [RecordType.typeAlong?, stepType?_of_index hindex] at htype
    exact ⟨hfits.field htype, by rw [along?_cons, step?_declared hname hindex htype]; rfl⟩
  | cons next rest ih =>
    obtain ⟨⟨hname, hindex⟩, hrest⟩ := List.forall_mem_cons.mp hsteps
    rw [RecordType.typeAlong?, stepType?_of_index hindex] at htype
    obtain ⟨declared, hdeclared, hnext⟩ := Option.bind_eq_some_iff.mp htype
    have hfield := hfits.field hdeclared
    rw [along?_cons, step?_declared hname hindex hdeclared, Option.bind_some]
    simp only [List.map_cons, breaksOff]
    split at hnext
    · rename_i name properties
      rcases hfield.record_cases (r := ⟨name, properties⟩) with hnull | ⟨inner, hinner⟩
      · -- The path goes on from null, where it leads nowhere.
        obtain ⟨⟨hnextname, -⟩, -⟩ := List.forall_mem_cons.mp hrest
        refine ⟨.null (isNull_fieldAlong hnull _), ?_⟩
        rw [along?_cons, step?_of_isNull hnextname hnull, hnull]
        rfl
      · have hnull : (Argument.record ⟨name, properties⟩ inner).isNull = false := rfl
        rw [fieldAlong, List.foldl_cons, ← fieldAlong, hinner, hnull, Bool.false_or]
        exact ih (hinner ▸ hfield) hrest hnext
    · cases hnext

end

end Argument

theorem BoundStatement.valueOf_record {s : BoundStatement} {handlers : HandlerRegistry}
    {p : Parameter} {r : RecordType} {fields : List (String × Argument)} {path : String}
    (hargument : s.argument = .record r fields) (hadditional : s.additional = [])
    (hhandler : handlers.handles r.toValueType = false) (hproperty : p.property = some path) :
    s.valueOf handlers p =
      match (Argument.record r fields).property? path with
      | some value => .ok value
      | none => .error (.parameter (.missingProperty path r.toValueType)) := by
  have hroot : s.hasAdditional path = false := by
    rw [hasAdditional, hadditional]
    rfl
  have htype : (Argument.record r fields).type = r.toValueType := rfl
  rw [valueOf, hproperty]
  dsimp only
  rw [read, hroot, hargument, htype, hhandler]
  simp only [Bool.false_eq_true, if_false, Argument.isNull]
  cases (Argument.record r fields).property? path <;> rfl

section
variable {s : BoundStatement} {handlers : HandlerRegistry} {p : Parameter} {r : RecordType}
  {fields : List (String × Argument)} {path : String} {type : ValueType}

/-- A declared property of a record is read, with null for a field that is not set, unless the path
goes on from a field that is null or not set: then it counts as missing. -/
theorem declared_properties_bind_or_break_off (hargument : s.argument = .record r fields)
    (hadditional : s.additional = []) (hhandler : handlers.handles r.toValueType = false)
    (hfits : Argument.Fits r.toValueType (.record r fields)) (hproperty : p.property = some path)
    (hsteps : ∀ step ∈ (Path.ofText path).steps, step.name ≠ "" ∧ step.index = none)
    (htype : r.propertyType? path = some type) :
    let names := (Path.ofText path).steps.map (·.name)
    s.valueOf handlers p =
      (if s.argument.breaksOff names then
        .error (.parameter (.missingProperty path r.toValueType))
      else .ok (s.argument.fieldAlong names)) ∧
    Argument.Fits type (s.argument.fieldAlong names) := by
  intro names
  obtain ⟨hvalue, halong⟩ := Argument.along?_declared hfits hsteps htype
  have hproperty? : (Argument.record r fields).property? path =
      if (Argument.record r fields).breaksOff names then none
      else some ((Argument.record r fields).fieldAlong names) := halong
  rw [BoundStatement.valueOf_record hargument hadditional hhandler hproperty, hargument, hproperty?]
  refine ⟨?_, hvalue⟩
  cases (Argument.record r fields).breaksOff names <;> rfl

end

def addressType : RecordType where
  name := "Address"
  properties := [("city", .text)]

def userType : RecordType where
  name := "User"
  properties := [("id", .int), ("address", addressType.toValueType)]

def orderType : RecordType where
  name := "Order"
  properties := [("buyer", userType.toValueType), ("total", .double)]

def settledUser : Argument :=
  .record userType [("address", .record addressType []), ("id", .ofInt 3)]

def firstOrder : Argument :=
  .record orderType [("buyer", settledUser), ("note", .list []), ("total", .value .null)]

theorem fits_firstOrder : Argument.Fits orderType.toValueType firstOrder := by
  have haddress : Argument.Fits addressType.toValueType (.record addressType []) := .record nofun
  have huser : Argument.Fits userType.toValueType settledUser := by
    refine .of_forall fun entry hentry type htype => ?_
    simp only [List.mem_cons, List.not_mem_nil, or_false] at hentry
    rcases hentry with rfl | rfl
    · cases htype
      exact haddress
    · cases htype
      exact .value rfl
  refine .of_forall fun entry hentry type htype => ?_
  simp only [List.mem_cons, List.not_mem_nil, or_false] at hentry
  rcases hentry with rfl | rfl | rfl
  · cases htype
    exact huser
  · cases htype
  · exact .null rfl

def lookupOf (path : String) (argument : Argument) : BoundStatement where
  sql := "select id from t where x = ?"
  parameters := [{ property := some path, type := .text }]
  argument

/-- The buyer of an order has an address, in which the city is not set. -/
theorem unset_city_is_null :
    orderType.propertyType? "buyer.address.city" = some .text ∧
    Argument.Fits orderType.toValueType firstOrder ∧
    (lookupOf "buyer.address.city" firstOrder).valueOf .standard
      { property := some "buyer.address.city", type := .text } = .ok .null := by
  have htype : orderType.propertyType? "buyer.address.city" = some .text := by rfl
  have hhandler : HandlerRegistry.standard.handles orderType.toValueType = false := rfl
  have hread := declared_properties_bind_or_break_off
    (s := lookupOf "buyer.address.city" firstOrder)
    (p := { property := some "buyer.address.city", type := .text })
    rfl rfl hhandler fits_firstOrder rfl (by decide +kernel) htype
  exact ⟨htype, fits_firstOrder, hread.1⟩

/-- The type of the city is declared, but a user without an address has none, not even null. -/
theorem unset_address_has_no_city :
    userType.propertyType? "address.city" = some .text ∧
    Argument.Fits userType.toValueType (.record userType [("id", .ofInt 3)]) ∧
    HandlerRegistry.standard.handles userType.toValueType = false ∧
    (lookupOf "address.city" (.record userType [("id", .ofInt 3)])).values .standard =
      .error (.parameter (.missingProperty "address.city" userType.toValueType)) := by
  refine ⟨rfl, .of_forall fun entry hentry type htype => ?_, rfl, rfl⟩
  obtain rfl := List.mem_singleton.mp hentry
  cases htype
  exact .value rfl

end MappedSql
