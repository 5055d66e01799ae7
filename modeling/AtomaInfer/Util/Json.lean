import Mathlib.Data.String.Basic
import Mathlib.Data.Prod.Lex

/-!
JSON values. The members of an object are an ordered map: a list that is sorted by its keys.
-/

namespace JsonNumber

def isDigits (text : List Char) : Bool :=
  !text.isEmpty && text.all (·.isDigit)

def isExponent (text : List Char) : Bool :=
  match text with
  | [] => true
  | c :: text =>
    (c = 'e' || c = 'E')
      && isDigits (if text.head? = some '+' || text.head? = some '-' then text.tail else text)

def isFraction (text : List Char) : Bool :=
  if text.head? = some '.' then
    isDigits (text.tail.takeWhile (·.isDigit)) && isExponent (text.tail.dropWhile (·.isDigit))
  else
    isExponent text

def isUnsigned (text : List Char) : Bool :=
  let digits := text.takeWhile (·.isDigit)
  isDigits digits && (digits.length = 1 || digits.head? ≠ some '0')
    && isFraction (text.dropWhile (·.isDigit))

def isLiteral (text : List Char) : Bool :=
  if text.head? = some '-' then isUnsigned text.tail else isUnsigned text

end JsonNumber

/--
A number is the literal that it is written as.
-/
structure JsonNumber where
  literal : List Char
  valid : JsonNumber.isLiteral literal = true

inductive Json where
  | null
  | bool (value : Bool)
  | number (value : JsonNumber)
  | string (value : String)
  | array (values : List Json)
  | object (members : List (String × Json))

namespace Json

theorem induction {P : Json → Prop} (null : P .null) (bool : ∀ value, P (.bool value))
    (number : ∀ value, P (.number value)) (string : ∀ value, P (.string value))
    (array : ∀ values, (∀ value ∈ values, P value) → P (.array values))
    (object : ∀ members, (∀ member ∈ members, P member.2) → P (.object members)) (json : Json)
    : P json := by
  refine @Json.rec P (fun values => ∀ value ∈ values, P value)
    (fun members => ∀ member ∈ members, P member.2) (fun member => P member.2) null bool number
    string array object ?_ ?_ ?_ ?_ ?_ json
  . intro value hvalue
    cases hvalue
  . intro head tail hhead htail value hvalue
    rcases List.mem_cons.mp hvalue with rfl | hvalue
    . exact hhead
    . exact htail value hvalue
  . intro member hmember
    cases hmember
  . intro head tail hhead htail member hmember
    rcases List.mem_cons.mp hmember with rfl | hmember
    . exact hhead
    . exact htail member hmember
  . intro _ _ hsnd
    exact hsnd

section Members

variable {α : Type} {key : String} {value : α} {members : List (String × α)}

/--
Insert a member. It replaces one with the same key.
-/
def insertMember (key : String) (value : α) (members : List (String × α)) : List (String × α) :=
  match members with
  | [] => [(key, value)]
  | member :: members =>
    if key < member.1 then
      (key, value) :: member :: members
    else if key = member.1 then
      (key, value) :: members
    else
      member :: insertMember key value members

/--
The map with the given members. The last one of a key counts.
-/
def ofMembers (members : List (String × α)) : List (String × α) :=
  members.foldl (fun map member => insertMember member.1 member.2 map) []

/--
The members for the fields of a struct. A field without a value is skipped.
-/
def ofFields (fields : List (String × Option α)) : List (String × α) :=
  fields.filterMap fun field => field.2.map fun value => (field.1, value)

theorem lookup_cons_eq (key' : String) (member : String × α)
    : (member :: members).lookup key'
        = if key' = member.1 then some member.2 else members.lookup key' := by
  rw [List.lookup_cons]
  by_cases h : key' = member.1
  . rw [if_pos h, beq_iff_eq.mpr h]
  . rw [if_neg h, beq_eq_false_iff_ne.mpr h]

theorem lookup_insertMember (key' : String)
    : (insertMember key value members).lookup key'
        = if key' = key then some value else members.lookup key' := by
  induction members with
  | nil =>
    rw [insertMember, lookup_cons_eq]
  | cons member members ih =>
    rw [insertMember]
    split
    . rw [lookup_cons_eq]
    . split
      . next heq =>
        rw [lookup_cons_eq, lookup_cons_eq, ← heq]
        split <;> rfl
      . next hne =>
        rw [lookup_cons_eq, lookup_cons_eq, ih]
        by_cases h : key' = key
        . have hne' : key' ≠ member.1 := fun heq => hne (h ▸ heq)
          rw [if_neg hne', if_pos h, if_pos h]
        . rw [if_neg h, if_neg h]

theorem lookup_eq_none_of_notMem (h : key ∉ members.map (·.1)) : members.lookup key = none := by
  induction members with
  | nil => rfl
  | cons member members ih =>
    rw [List.map_cons, List.mem_cons, not_or] at h
    rw [lookup_cons_eq, if_neg h.1, ih h.2]

theorem lookup_ofMembers (hnodup : (members.map (·.1)).Nodup) (key : String)
    : (ofMembers members).lookup key = members.lookup key := by
  suffices ∀ map : List (String × α),
      (members.foldl (fun map member => insertMember member.1 member.2 map) map).lookup key
        = (members.lookup key).or (map.lookup key) by
    rw [ofMembers, this, List.lookup_nil, Option.or_none]
  induction members with
  | nil => exact fun _ => rfl
  | cons member members ih =>
    intro map
    rw [List.map_cons, List.nodup_cons] at hnodup
    rw [List.foldl_cons, ih hnodup.2, lookup_insertMember, lookup_cons_eq]
    by_cases h : key = member.1
    . subst h
      rw [if_pos rfl, if_pos rfl, lookup_eq_none_of_notMem hnodup.1]
      rfl
    . rw [if_neg h, if_neg h]

theorem mem_of_mem_insertMember {member : String × α} (h : member ∈ insertMember key value members)
    : member = (key, value) ∨ member ∈ members := by
  induction members with
  | nil => exact Or.inl (List.mem_singleton.mp h)
  | cons head members ih =>
    rw [insertMember] at h
    split at h
    . exact List.mem_cons.mp h
    . split at h
      . rcases List.mem_cons.mp h with heq | hmem
        . exact Or.inl heq
        . exact Or.inr (List.mem_cons_of_mem _ hmem)
      . rcases List.mem_cons.mp h with heq | hmem
        . exact Or.inr (heq ▸ List.mem_cons_self)
        . rcases ih hmem with heq | hmem
          . exact Or.inl heq
          . exact Or.inr (List.mem_cons_of_mem _ hmem)

theorem mem_of_mem_ofMembers {member : String × α} (h : member ∈ ofMembers members)
    : member ∈ members := by
  suffices ∀ map : List (String × α),
      member ∈ members.foldl (fun map member => insertMember member.1 member.2 map) map →
        member ∈ map ∨ member ∈ members by
    rcases this [] h with hmem | hmem
    . cases hmem
    . exact hmem
  clear h
  induction members with
  | nil => exact fun map hmem => Or.inl hmem
  | cons head members ih =>
    intro map hmem
    rcases ih _ hmem with hmem | hmem
    . rcases mem_of_mem_insertMember hmem with heq | hmem
      . exact Or.inr (heq ▸ List.mem_cons_self)
      . exact Or.inl hmem
    . exact Or.inr (List.mem_cons_of_mem _ hmem)

theorem insertMember_of_forall_lt (h : ∀ member ∈ members, member.1 < key)
    : insertMember key value members = members ++ [(key, value)] := by
  induction members with
  | nil => rfl
  | cons member members ih =>
    rw [List.forall_mem_cons] at h
    rw [insertMember, if_neg (not_lt_of_gt h.1), if_neg (ne_of_gt h.1), ih h.2]
    rfl

/--
Members that are sorted are a map.
-/
theorem ofMembers_of_pairwise (h : (members.map (·.1)).Pairwise (· < ·))
    : ofMembers members = members := by
  suffices ∀ map : List (String × α), ((map ++ members).map (·.1)).Pairwise (· < ·) →
      members.foldl (fun map member => insertMember member.1 member.2 map) map = map ++ members by
    exact this [] h
  clear h
  induction members with
  | nil => exact fun map _ => (List.append_nil map).symm
  | cons member members ih =>
    intro map hmap
    have hlt : ∀ earlier ∈ map, earlier.1 < member.1 := by
      intro earlier hearlier
      rw [List.map_append, List.pairwise_append] at hmap
      exact hmap.2.2 earlier.1 (List.mem_map_of_mem hearlier) member.1 List.mem_cons_self
    rw [List.foldl_cons, insertMember_of_forall_lt hlt, ih _ (by simpa using hmap)]
    simp

theorem map_fst_ofFields_sublist (fields : List (String × Option α))
    : ((ofFields fields).map (·.1)).Sublist (fields.map (·.1)) := by
  induction fields with
  | nil => exact .refl _
  | cons field fields ih =>
    unfold ofFields at ih ⊢
    rw [List.filterMap_cons, List.map_cons]
    split
    . exact ih.cons _
    . next hsome =>
      rcases Option.map_eq_some_iff.mp hsome with ⟨value, -, rfl⟩
      exact ih.cons_cons _

/--
Fields with distinct names are found in the map that they are put into, unless they are skipped.
-/
theorem lookup_ofFields {fields : List (String × Option α)} (hnodup : (fields.map (·.1)).Nodup)
    (key : String) : (ofMembers (ofFields fields)).lookup key = (fields.lookup key).join := by
  rw [lookup_ofMembers (hnodup.sublist (map_fst_ofFields_sublist fields))]
  induction fields with
  | nil => rfl
  | cons field fields ih =>
    rw [List.map_cons, List.nodup_cons] at hnodup
    have hfields : ofFields (field :: fields)
        = (field.2.map fun value => (field.1, value)).toList ++ ofFields fields := by
      unfold ofFields
      rw [List.filterMap_cons]
      cases field.2 <;> rfl
    rw [hfields, lookup_cons_eq]
    cases hvalue : field.2 with
    | none =>
      rw [Option.map_none, Option.toList_none, List.nil_append, ih hnodup.2]
      by_cases h : key = field.1
      . rw [if_pos h, h, lookup_eq_none_of_notMem hnodup.1]
        rfl
      . rw [if_neg h]
    | some value =>
      rw [Option.map_some, Option.toList_some, List.singleton_append, lookup_cons_eq,
        ih hnodup.2]
      by_cases h : key = field.1
      . rw [if_pos h, if_pos h]
        rfl
      . rw [if_neg h, if_neg h]

end Members

/--
The ways in which a value is not one of the type that it is read as.
-/
inductive DeserializeError where
  | invalidType (expected : String)
  | missingField (name : String)
  | unknownVariant (name : String)
  | noVariant (enum : String)
  | custom (message : String)
  deriving DecidableEq

section Deserialize

variable {α : Type}

def asString (json : Json) : Except DeserializeError String :=
  match json with
  | .string value => .ok value
  | _ => .error (.invalidType "a string")

def asArray (json : Json) : Except DeserializeError (List Json) :=
  match json with
  | .array values => .ok values
  | _ => .error (.invalidType "a sequence")

def asObject (json : Json) : Except DeserializeError (List (String × Json)) :=
  match json with
  | .object members => .ok members
  | _ => .error (.invalidType "a map")

/--
An `Option` is `none` for null.
-/
def asOption (read : Json → Except DeserializeError α) (json : Json)
    : Except DeserializeError (Option α) :=
  match json with
  | .null => .ok none
  | json => (read json).map some

/--
The field of a struct.
-/
def field (members : List (String × Json)) (name : String)
    (read : Json → Except DeserializeError α) : Except DeserializeError α :=
  match members.lookup name with
  | some json => read json
  | none => .error (.missingField name)

/--
The field of a struct that may be missing.
-/
def fieldOr (members : List (String × Json)) (name : String)
    (read : Json → Except DeserializeError α) (default : α) : Except DeserializeError α :=
  match members.lookup name with
  | some json => read json
  | none => .ok default

/--
The struct with the given fields as an object.
-/
def struct (fields : List (String × Option Json)) : Json :=
  .object (ofMembers (ofFields fields))

variable {fields : List (String × Option Json)} {name : String}
variable {read : Json → Except DeserializeError α}

theorem field_ofFields (hnodup : (fields.map (·.1)).Nodup) {json : Json}
    (h : fields.lookup name = some (some json))
    : field (ofMembers (ofFields fields)) name read = read json := by
  unfold field
  rw [lookup_ofFields hnodup, h]
  rfl

/--
An optional field that is skipped is read as its default.
-/
theorem fieldOr_ofFields (hnodup : (fields.map (·.1)).Nodup) {json : Option Json}
    (h : fields.lookup name = some json) (default : α)
    : fieldOr (ofMembers (ofFields fields)) name read default
        = (json.map read).getD (.ok default) := by
  unfold fieldOr
  rw [lookup_ofFields hnodup, h]
  cases json <;> rfl

theorem mapM_map_eq_ok {write : α → Json} (h : ∀ value, read (write value) = .ok value)
    (values : List α) : (values.map write).mapM read = .ok values := by
  induction values with
  | nil => rfl
  | cons value values ih =>
    rw [List.map_cons, List.mapM_cons, h, ih]
    rfl

end Deserialize

end Json
