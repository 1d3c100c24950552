import ChangeFeed.Event
import ChangeFeed.Json.Identity
import ChangeFeed.Schema.Build

/-!
# The schema cache

The schemas of a table are built from the first description that can be built
and kept under the name of the table until they are dropped. What builds them is
told whether all columns are kept as texts; the cache has this from its start, as
the formatter that it belongs to has it from its settings. Builds are numbered, so
that it can be told which build a request returned. Looking anything up needs a
name with an identity; only dropping from an empty cache does not look it up.

**Results.**

* `lookup_insert_self`, `lookup_insert_of_ne`: what is found after a build.
* `lookup_remove_self`, `lookup_remove_of_ne`: what is found after a drop.
-/

namespace ChangeFeed
namespace Schema

/-- A numbered build of schemas. -/
structure Build where
  number : Nat
  schemas : Schemas
deriving DecidableEq

/-- What builds the schemas of a table, with all columns kept as texts or not. -/
abbrev Builder := Bool → Table → Except Fault Schemas

/-- The schemas that are kept, and the number of builds so far. -/
structure Cache where
  /-- Whether schemas are built with all columns kept as texts. -/
  asText : Bool := false
  entries : List (Identity × Build) := []
  builds : Nat := 0
deriving DecidableEq

namespace Cache

/-- The build kept under an identity. -/
def lookup? (cache : Cache) (id : Identity) : Option Build :=
  cache.entries.lookup id

/-- The cache with a new build under an identity that has none. -/
def insert
    (cache : Cache)
    (id : Identity)
    (schemas : Schemas) : Cache :=
  { cache with
    entries := cache.entries ++ [(id, ⟨cache.builds, schemas⟩)]
    builds := cache.builds + 1 }

/-- The cache without the build under an identity. -/
def remove (cache : Cache) (id : Identity) : Cache :=
  { cache with entries := cache.entries.filter fun entry => entry.1 ≠ id }

/-- What a step on the cache returns: a result, the cache after it and its events. -/
structure Step (α : Type) where
  result : Except Fault α
  cache : Cache
  events : List Event

/--
The schemas of a table: those kept under the name, or new ones built from its
description, which are kept and reported. A failing build keeps nothing.
-/
def requestWith
    (builder : Builder)
    (cache : Cache)
    (name : Json)
    (table : Table) : Step Build :=
  match name.identity? with
  | none => ⟨.error (.unhashable name.kind), cache, []⟩
  | some id =>
      match cache.lookup? id with
      | some build => ⟨.ok build, cache, []⟩
      | none =>
          match builder cache.asText table with
          | .error fault => ⟨.error fault, cache, []⟩
          | .ok schemas =>
              ⟨.ok ⟨cache.builds, schemas⟩, cache.insert id schemas,
                [.schemaBuilt name schemas.hasKey]⟩

/-- The schemas of a table, built as those of its columns if they are not kept. -/
def request
    (cache : Cache)
    (name : Json)
    (table : Table) : Step Build :=
  cache.requestWith Schemas.ofTable name table

/-- Drops the schemas kept under a name, if there are any, and reports it. -/
def drop (cache : Cache) (name : Json) : Step Unit :=
  if cache.entries.isEmpty then
    ⟨.ok (), cache, []⟩
  else
    match name.identity? with
    | none => ⟨.error (.unhashable name.kind), cache, []⟩
    | some id =>
        match cache.lookup? id with
        | none => ⟨.ok (), cache, []⟩
        | some _ => ⟨.ok (), cache.remove id, [.schemaDropped name]⟩

/-- Whether schemas are kept under a name. -/
def contains (cache : Cache) (name : Json) : Except Fault Bool :=
  match name.identity? with
  | none => .error (.unhashable name.kind)
  | some id => .ok (cache.lookup? id).isSome

theorem lookup_insert_self
    (cache : Cache)
    (id : Identity)
    (schemas : Schemas)
    (h : cache.lookup? id = none) :
    (cache.insert id schemas).lookup? id = some ⟨cache.builds, schemas⟩ := by
  simp only [lookup?, insert] at h ⊢
  rw [List.lookup_append, h]
  simp

theorem lookup_insert_of_ne
    (cache : Cache)
    (id other : Identity)
    (schemas : Schemas)
    (h : other ≠ id) :
    (cache.insert id schemas).lookup? other = cache.lookup? other := by
  simp only [lookup?, insert]
  rw [List.lookup_append]
  have hne : (other == id) = false := by simpa using h
  cases cache.entries.lookup other <;> simp [List.lookup_cons, hne]

theorem lookup_remove_self (cache : Cache) (id : Identity) :
    (cache.remove id).lookup? id = none := by
  simp only [lookup?, remove]
  induction cache.entries with
  | nil => rfl
  | cons entry rest ih =>
      by_cases h : entry.1 = id
      · rw [List.filter_cons_of_neg (by simp [h])]
        exact ih
      · rw [List.filter_cons_of_pos (by simp [h])]
        obtain ⟨key, build⟩ := entry
        have hne : (id == key) = false := by simpa using Ne.symm h
        rw [List.lookup_cons, hne]
        exact ih

theorem lookup_remove_of_ne
    (cache : Cache)
    (id other : Identity)
    (h : other ≠ id) :
    (cache.remove id).lookup? other = cache.lookup? other := by
  simp only [lookup?, remove]
  induction cache.entries with
  | nil => rfl
  | cons entry rest ih =>
      obtain ⟨key, build⟩ := entry
      by_cases hk : key = id
      · subst hk
        have hne : (other == key) = false := by simpa using h
        simpa [List.lookup_cons, hne] using ih
      · simp only [ne_eq, hk, not_false_eq_true, decide_true, List.filter_cons_of_pos,
          List.lookup_cons]
        cases other == key
        · exact ih
        · rfl

end Cache
end Schema
end ChangeFeed
