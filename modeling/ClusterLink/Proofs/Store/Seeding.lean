import ClusterLink.Proofs.Store.Effect
import ClusterLink.Seed
import Mathlib.Data.List.Induction

/-! Seeding a store. Of the entries of a document that are about one object the last one says what
it asks for, the first one what belongs to the controller, and each of them counts as a version
(`Layered`). One more entry lays itself over what stands in its place (`Overlaid`), whatever store
it meets. -/

namespace ClusterLink

/-- What an object asks for, or what a secret holds. -/
inductive Object.Body where
  | association (spec : AssociationSpec)
  | elasticsearch (spec : ElasticsearchSpec)
  | kibana (spec : KibanaSpec)
  | secret (data : Dict String (List UInt8))

namespace Object

def body : Object → Body
  | .association a => .association a.spec
  | .elasticsearch es => .elasticsearch es.spec
  | .kibana kb => .kibana kb.spec
  | .secret s => .secret s.data

/-- The status of an association; other objects have none. -/
def status? : Object → Option Status
  | .association a => some a.status
  | .elasticsearch _ | .kibana _ | .secret _ => none

end Object

/-- What applying an object from outside makes of what stands in its place. -/
structure Overlaid (o : Object) (old : Option Object) (new : Object) : Prop where
  body : new.body = o.body
  annotations : new.metadata.annotations = o.metadata.annotations
  finalizers : new.metadata.finalizers = (old.getD o).metadata.finalizers
  status : new.status? = (old.getD o).status?
  tombstone : new.metadata.tombstone = o.metadata.tombstone.or (old.bind (·.metadata.tombstone))
  version : new.metadata.version = (old.elim 0 (·.metadata.version)) + 1

/-- What stands in a place after some entries that are about it, and nothing else. -/
structure Layered (entries : List Object) (o : Object) : Prop where
  body : entries.getLast?.map Object.body = some o.body
  annotations : entries.getLast?.map (·.metadata.annotations) = some o.metadata.annotations
  finalizers : entries.head?.map (·.metadata.finalizers) = some o.metadata.finalizers
  status : entries.head?.map Object.status? = some o.status?
  /-- The tombstone of the last entry that has one. -/
  tombstone : (entries.filterMap (·.metadata.tombstone)).getLast? = o.metadata.tombstone
  version : o.metadata.version = .ofNat entries.length

theorem Overlaid.layered_singleton {o new : Object} (h : Overlaid o none new) :
    Layered [o] new where
  body := congrArg some h.body.symm
  annotations := congrArg some h.annotations.symm
  finalizers := congrArg some h.finalizers.symm
  status := congrArg some h.status.symm
  tombstone := by
    rw [h.tombstone]
    cases ht : o.metadata.tombstone <;> simp [ht]
  version := h.version

/-- One more entry for an object that is there. -/
theorem Overlaid.layered_concat {o old new : Object} {entries : List Object}
    (h : Overlaid o (some old) new) (hold : Layered entries old) :
    Layered (entries ++ [o]) new := by
  obtain ⟨first, rest, rfl⟩ : ∃ first rest, entries = first :: rest := by
    cases entries with
    | nil => exact nomatch hold.body
    | cons first rest => exact ⟨first, rest, rfl⟩
  constructor
  case body =>
    rw [List.getLast?_concat, h.body]
    rfl
  case annotations =>
    rw [List.getLast?_concat, h.annotations]
    rfl
  case finalizers => exact hold.finalizers.trans (congrArg some h.finalizers.symm)
  case status => exact hold.status.trans (congrArg some h.status.symm)
  case tombstone =>
    rw [h.tombstone, List.filterMap_append, List.getLast?_append, hold.tombstone]
    cases ht : o.metadata.tombstone <;> simp [ht]
  case version =>
    rw [h.version, List.length_append, List.length_singleton, UInt64.ofNat_add]
    exact congrArg (· + 1) hold.version

namespace Store

variable {s : Store} {kind : Kind} {key : Key}

/-! ## One entry -/

namespace Shelf

variable {R : Type} [Resource R] {sh : Shelf R}

/-- Metadata can be changed apart from the rest, and what belongs to the controller is kept. -/
structure Apart (sh : Shelf R) : Prop where
  body_withMetadata : ∀ r m,
    (sh.object (Resource.withMetadata r m)).body = (sh.object r).body := by intros; rfl
  status_withMetadata : ∀ r m,
    (sh.object (Resource.withMetadata r m)).status? = (sh.object r).status? := by intros; rfl
  body_retain : ∀ incoming stored,
    (sh.object (Resource.retain incoming stored)).body = (sh.object incoming).body := by
      intros; rfl
  status_retain : ∀ incoming stored,
    (sh.object (Resource.retain incoming stored)).status? = (sh.object stored).status? := by
      intros; rfl

variable [LawfulResource R]

theorem Apart.overlaid_created (h : sh.Apart) (fresh : Uid) (incoming : R) :
    Overlaid (sh.object incoming) none (sh.object (Table.created fresh incoming)) where
  body := h.body_withMetadata ..
  annotations := by simp [sh.metadata_object, Table.created]
  finalizers := by simp [sh.metadata_object, Table.created]
  status := h.status_withMetadata ..
  tombstone := by simp [sh.metadata_object, Table.created]
  version := by simp [sh.metadata_object, Table.created]

theorem Apart.overlaid_replaced (h : sh.Apart) (incoming stored : R) :
    Overlaid (sh.object incoming) (some (sh.object stored))
      (sh.object (Table.replaced incoming stored)) where
  body := (h.body_withMetadata ..).trans (h.body_retain ..)
  annotations := by simp [sh.metadata_object, Table.replaced, Metadata.keepFinalizers]
  finalizers := by simp [sh.metadata_object, Table.replaced, Metadata.keepFinalizers]
  status := (h.status_withMetadata ..).trans (h.status_retain ..)
  tombstone := by simp [sh.metadata_object, Table.replaced, Metadata.keepFinalizers]
  version := by simp [sh.metadata_object, Table.replaced]

theorem Apart.overlaid_apply (h : sh.Apart) (s : Store) (incoming : R) :
    Overlaid (sh.object incoming) (s.find? (Resource.kind R) (Resource.key incoming))
      (sh.object ((sh.table s).apply (.generated s.issued) incoming).1) := by
  rw [sh.find?_kind]
  cases hold : (sh.table s).find? (Resource.key incoming) with
  | none =>
    simp only [Table.apply, hold]
    exact h.overlaid_created ..
  | some stored =>
    simp only [Table.apply, hold]
    exact h.overlaid_replaced ..

end Shelf

/-- An entry changes its own place and is logged. -/
theorem wrote_edit_apply (s : Store) (o : Object) :
    ∃ new, Overlaid o (s.find? o.kind o.metadata.key) new ∧
      s.Wrote o.kind o.metadata.key (some new) (s.edit (.apply o)) := by
  cases o with
  | association a =>
    have hapart : Shelf.associations.Apart := {}
    exact ⟨_, hapart.overlaid_apply s a, Shelf.associations.wrote_apply s a⟩
  | elasticsearch es =>
    have hapart : Shelf.elasticsearches.Apart := {}
    exact ⟨_, hapart.overlaid_apply s es, Shelf.elasticsearches.wrote_apply s es⟩
  | kibana kb =>
    have hapart : Shelf.kibanas.Apart := {}
    exact ⟨_, hapart.overlaid_apply s kb, Shelf.kibanas.wrote_apply s kb⟩
  | secret x =>
    have hapart : Shelf.secrets.Apart := {}
    exact ⟨_, hapart.overlaid_apply s x, Shelf.secrets.wrote_apply s x⟩

/-! ## All entries -/

/-- The store after some objects were applied, one after the other. -/
def seeded (s : Store) (l : List Object) : Store := l.foldl (fun s o => s.edit (.apply o)) s

theorem seeded_append (s : Store) (l l' : List Object) :
    s.seeded (l ++ l') = (s.seeded l).seeded l' := List.foldl_append

theorem seeded_concat (s : Store) (l : List Object) (o : Object) :
    s.seeded (l ++ [o]) = (s.seeded l).edit (.apply o) := by
  simp [seeded]

/-- The event of an object that was applied. -/
def appliedEvent (o : Object) : Event := ⟨o.kind, o.metadata.key, .applied⟩

theorem events_seeded (s : Store) (l : List Object) :
    (s.seeded l).log.events.toList = s.log.events.toList ++ l.map appliedEvent := by
  induction l using List.reverseRecOn with
  | nil => simp [seeded]
  | append_singleton l o ih =>
    obtain ⟨new, -, hw⟩ := (s.seeded l).wrote_edit_apply o
    rw [seeded_concat, hw.log, EventLog.append, Array.toList_push, ih, List.map_append,
      List.append_assoc]
    rfl

/-- The entries of a list that are about one object. -/
def entriesAt (l : List Object) (kind : Kind) (key : Key) : List Object :=
  l.filter fun o => o.kind = kind ∧ o.metadata.key = key

theorem entriesAt_concat (l : List Object) (o : Object) (kind : Kind) (key : Key) :
    entriesAt (l ++ [o]) kind key =
      if o.kind = kind ∧ o.metadata.key = key then entriesAt l kind key ++ [o]
      else entriesAt l kind key := by
  rw [entriesAt, List.filter_append]
  by_cases h : o.kind = kind ∧ o.metadata.key = key <;> simp [h, entriesAt]

/-- Entries about other objects leave a place alone. -/
theorem find?_seeded_of_entriesAt_eq_nil {l : List Object} (h : entriesAt l kind key = []) :
    (s.seeded l).find? kind key = s.find? kind key := by
  induction l using List.reverseRecOn with
  | nil => rfl
  | append_singleton l o ih =>
    obtain ⟨new, -, hw⟩ := (s.seeded l).wrote_edit_apply o
    rw [entriesAt_concat] at h
    split at h
    next => simp at h
    next hp => rw [seeded_concat, hw.others kind key fun hk hx => hp ⟨hk.symm, hx.symm⟩, ih h]

/-- What the entries of a list make of an empty place. -/
theorem find?_seeded (hs : s.find? kind key = none) (l : List Object) :
    (entriesAt l kind key = [] ∧ (s.seeded l).find? kind key = none) ∨
      ∃ o, (s.seeded l).find? kind key = some o ∧ Layered (entriesAt l kind key) o := by
  induction l using List.reverseRecOn with
  | nil => exact .inl ⟨rfl, hs⟩
  | append_singleton l o ih =>
    obtain ⟨new, hover, hw⟩ := (s.seeded l).wrote_edit_apply o
    rw [seeded_concat, entriesAt_concat]
    split
    next hp =>
      obtain ⟨rfl, rfl⟩ := hp
      refine .inr ⟨new, hw.found, ?_⟩
      rcases ih with ⟨hnil, hnone⟩ | ⟨old, hold, hlayered⟩
      · rw [hnil]
        exact (hnone ▸ hover).layered_singleton
      · exact (hold ▸ hover).layered_concat hlayered
    next hp =>
      rw [hw.others kind key fun hk hx => hp ⟨hk.symm, hx.symm⟩]
      exact ih

end Store

/-! ## Documents -/

namespace SeedDocument

open Store

/-- The objects of one kind that a document lists, in its order. -/
def entries (d : SeedDocument) : Kind → List Object
  | .association => d.associations.map .association
  | .elasticsearch => d.elasticsearch.map .elasticsearch
  | .kibana => d.kibana.map .kibana
  | .secret => d.secrets.map fun secret => .secret secret.secret

/-- Everything that a document lists, in the order in which it is applied. -/
def objects (d : SeedDocument) : List Object :=
  d.entries .elasticsearch ++ d.entries .kibana ++ d.entries .secret ++ d.entries .association

variable {d : SeedDocument} {kind : Kind} {o : Object}

theorem apply_eq_seeded (d : SeedDocument) (s : Store) : d.apply s = s.seeded d.objects := by
  simp only [seeded, objects, entries, List.foldl_append, List.foldl_map]
  rfl

theorem kind_of_mem_entries (h : o ∈ d.entries kind) : o.kind = kind := by
  cases kind <;> obtain ⟨_, -, rfl⟩ := List.mem_map.1 h <;> rfl

/-- Entries of another kind are about other objects. -/
theorem entriesAt_entries (d : SeedDocument) (listed kind : Kind) (key : Key) :
    entriesAt (d.entries listed) kind key =
      if listed = kind then (d.entries kind).filter (·.metadata.key = key) else [] := by
  split
  next h =>
    subst h
    refine List.filter_congr fun o ho => ?_
    simp [kind_of_mem_entries ho]
  next h =>
    refine List.filter_eq_nil_iff.2 fun o ho => ?_
    simp [kind_of_mem_entries ho, h]

theorem entriesAt_objects (d : SeedDocument) (kind : Kind) (key : Key) :
    entriesAt d.objects kind key = (d.entries kind).filter (·.metadata.key = key) := by
  have happend (l l' : List Object) :
      entriesAt (l ++ l') kind key = entriesAt l kind key ++ entriesAt l' kind key :=
    List.filter_append ..
  simp only [objects, happend, entriesAt_entries]
  cases kind <;> simp

/-- A document that is put into an empty store. The objects that the store holds of a kind are those
that the document lists, and what it holds in a place is made of the entries for that place: the
last one says what is asked for, the first one what belongs to the controller. Every entry is told
once, in the order in which the document is applied. -/
theorem apply_new (d : SeedDocument) (eventCapacity : Nat) :
    let s := d.apply (.new eventCapacity)
    (∀ kind key, (s.find? kind key).isSome ↔ ∃ o ∈ d.entries kind, o.metadata.key = key) ∧
      (∀ kind key o, s.find? kind key = some o →
        Layered ((d.entries kind).filter (·.metadata.key = key)) o) ∧
      s.log.events.toList = (d.entries .elasticsearch ++ d.entries .kibana ++ d.entries .secret ++
        d.entries .association).map appliedEvent := by
  intro s
  have hs : s = (Store.new eventCapacity).seeded d.objects := apply_eq_seeded ..
  have hplace (kind : Kind) (key : Key) := find?_seeded
    (show (Store.new eventCapacity).find? kind key = none by cases kind <;> rfl) d.objects
  simp only [entriesAt_objects, ← hs] at hplace
  refine ⟨fun kind key => ?_, fun kind key o ho => ?_, ?_⟩
  · rcases hplace kind key with ⟨hnil, hnone⟩ | ⟨o, ho, hlayered⟩
    · simpa [hnone] using List.filter_eq_nil_iff.1 hnil
    · obtain ⟨last, hlast, -⟩ := Option.map_eq_some_iff.1 hlayered.body
      have hmem := List.mem_of_getLast? hlast
      rw [List.mem_filter] at hmem
      simp only [ho, Option.isSome_some, true_iff]
      exact ⟨last, hmem.1, of_decide_eq_true hmem.2⟩
  · rcases hplace kind key with ⟨-, hnone⟩ | ⟨o', ho', hlayered⟩
    · exact nomatch hnone.symm.trans ho
    · cases ho'.symm.trans ho
      exact hlayered
  · rw [hs, events_seeded]
    rfl

/-- An association that is listed twice, the second time being deleted, between a cluster and a
secret. -/
theorem apply_new_of_repeated :
    let key : Key := ⟨"ns", "a"⟩
    let first : Association :=
      { metadata := { Metadata.new key with finalizers := ["kept"] }, spec := ⟨key, key⟩,
        status := .established }
    let last : Association :=
      { metadata := { Metadata.new key with finalizers := ["dropped"], tombstone := some default },
        spec := ⟨key, ⟨"ns", "kb"⟩⟩, status := .failed }
    let s := (SeedDocument.mk [⟨.new key, default⟩] [] [⟨key, ∅⟩] [first, last]).apply (.new 4)
    (∃ o, s.find? .association key = some o ∧ o.body = .association last.spec ∧
      o.metadata.finalizers = ["kept"] ∧ o.status? = some .established ∧
      o.metadata.tombstone = some default ∧ o.metadata.version = 2) ∧
    s.log.events.toList.map Event.kind = [.elasticsearch, .secret, .association, .association] := by
  intro key first last s
  obtain ⟨hkeys, hfound, hlog⟩ :=
    apply_new (SeedDocument.mk [⟨.new key, default⟩] [] [⟨key, ∅⟩] [first, last]) 4
  refine ⟨?_, ?_⟩
  · obtain ⟨o, ho⟩ := Option.isSome_iff_exists.1
      ((hkeys .association key).2 ⟨.association first, by simp [entries], rfl⟩)
    have h := hfound .association key o ho
    have hentries : (SeedDocument.mk [⟨.new key, default⟩] [] [⟨key, ∅⟩] [first, last]).entries
        .association = [.association first, .association last] := rfl
    rw [hentries, List.filter_eq_self.2 (by decide)] at h
    exact ⟨o, ho, (Option.some.inj h.body).symm, (Option.some.inj h.finalizers).symm,
      (Option.some.inj h.status).symm, h.tombstone.symm, h.version⟩
  · rw [hlog]
    rfl

end SeedDocument

end ClusterLink
