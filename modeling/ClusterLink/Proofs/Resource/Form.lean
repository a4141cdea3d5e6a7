import ClusterLink.Resource.Object
import ClusterLink.Proofs.Json.Fields
import ClusterLink.Proofs.Text.Instant
import ClusterLink.Proofs.Text.Uid

/-! Objects are restored from their JSON form. Every record names its fields in the order in which
it is written, each field is restored by its own form, and those that are left out are the defaults
of their readers. -/

namespace ClusterLink

open Json

theorem Key.restores : Restores Key.json Key.ofJson? where
  legible k := by simp [Key.json]
  read_encode k := by
    refine bind_of_eq_some (fields?_record (.refl _) (by decide)) ?_
    refine bind_of_eq_some (Restores.str.required rfl) ?_
    exact bind_of_eq_some (Restores.str.required rfl) rfl

theorem Status.restores : Restores Status.json Status.ofJson? where
  legible _ := legible_str _
  read_encode s := by cases s <;> rfl

/-! ## Metadata -/

namespace Metadata

theorem restoresUid : Restores (fun u : Uid => .str u.text) fun v => v.str?.bind Uid.read? :=
  .ofText Uid.read?_text

theorem restoresInstant :
    Restores (fun t : Instant => .str t.text) fun v => v.str?.bind Instant.read? :=
  .ofText Instant.read?_text

/-- What is written of the metadata, with every part that can be left out as an optional member. -/
def members (m : Metadata) : List (String × Json) :=
  [("namespace", .str m.key.space), ("name", .str m.key.name)] ++
    member? "uid" (fun u : Uid => .str u.text) m.uid ++
    [("resource_version", .nat m.version.toNat)] ++
    member? "annotations" (ofDict .str) (if m.annotations.isEmpty then none else some m.annotations) ++
    member? "finalizers" (fun l : List String => .array (l.map .str))
      (if m.finalizers.isEmpty then none else some m.finalizers) ++
    member? "deletion_timestamp" (fun t : Instant => .str t.text) m.tombstone

theorem json_eq (m : Metadata) : m.json = record m.members := by
  unfold Metadata.json members
  cases m.annotations.isEmpty <;> cases m.finalizers.isEmpty <;> rfl

/-- The members stand in the order of the fields. -/
theorem names_sublist (m : Metadata) : (m.members.map Prod.fst).Sublist fieldNames := by
  simp only [members, List.map_append]
  exact (((((List.Sublist.refl ["namespace", "name"]).append (sublist_member?_names ..)).append
    (.refl ["resource_version"])).append (sublist_member?_names ..)).append
    (sublist_member?_names ..)).append (sublist_member?_names ..)

theorem restores : Restores Metadata.json Metadata.ofJson? where
  legible m := by
    rw [json_eq, legible_record]
    simp only [members, List.forall_mem_append, forall_mem_member?]
    refine ⟨⟨⟨⟨⟨?_, ?_⟩, ?_⟩, ?_⟩, ?_⟩, ?_⟩
    · simp
    · exact fun u _ => restoresUid.legible u
    · simp
    · exact fun d _ => Restores.str.dict.legible d
    · exact fun l _ => Restores.str.list.legible l
    · exact fun t _ => restoresInstant.legible t
  read_encode m := by
    have huid : m.members.lookup "uid" = m.uid.map fun u => .str u.text := by
      simp [members, List.lookup_cons, List.lookup_append]
    have hversion : m.members.lookup "resource_version" = some (.nat m.version.toNat) := by
      simp [members, List.lookup_cons, List.lookup_append]
    have hannotations : m.members.lookup "annotations"
        = (if m.annotations.isEmpty then none else some m.annotations).map (ofDict .str) := by
      simp [members, List.lookup_cons, List.lookup_append]
    have hfinalizers : m.members.lookup "finalizers"
        = (if m.finalizers.isEmpty then none else some m.finalizers).map
          fun l => .array (l.map .str) := by
      simp [members, List.lookup_cons, List.lookup_append]
    have htombstone : m.members.lookup "deletion_timestamp"
        = m.tombstone.map fun t => .str t.text := by
      simp [members, List.lookup_cons, List.lookup_append]
    rw [json_eq]
    refine bind_of_eq_some (fields?_record m.names_sublist (by decide)) ?_
    refine bind_of_eq_some (Restores.str.required rfl) ?_
    refine bind_of_eq_some (Restores.str.required rfl) ?_
    refine bind_of_eq_some (restoresUid.optional (fun _ => nofun) huid) ?_
    refine bind_of_eq_some (Restores.uint64.withDefault hversion) ?_
    refine bind_of_eq_some
      (Restores.str.dict.withDefault_unless hannotations fun h => Dict.eq_empty_of_isEmpty h) ?_
    refine bind_of_eq_some
      (Restores.str.list.withDefault_unless hfinalizers fun h => List.isEmpty_iff.1 h) ?_
    exact bind_of_eq_some (restoresInstant.optional (fun _ => nofun) htombstone) rfl

end Metadata

/-! ## Associations -/

theorem AssociationSpec.restores : Restores AssociationSpec.json AssociationSpec.ofJson? where
  legible s := by simp [AssociationSpec.json, Key.restores.legible]
  read_encode s := by
    refine bind_of_eq_some (fields?_record (.refl _) (by decide)) ?_
    refine bind_of_eq_some (Key.restores.required rfl) ?_
    exact bind_of_eq_some (Key.restores.required rfl) rfl

theorem Association.restores : Restores Association.json Association.ofJson? where
  legible a := by
    simp [Association.json, Metadata.restores.legible, AssociationSpec.restores.legible,
      Status.restores.legible]
  read_encode a := by
    refine bind_of_eq_some (fields?_record (.refl _) (by decide)) ?_
    refine bind_of_eq_some (Metadata.restores.required rfl) ?_
    refine bind_of_eq_some (AssociationSpec.restores.required rfl) ?_
    exact bind_of_eq_some (Status.restores.withDefault rfl) rfl

/-! ## Clusters -/

theorem ElasticsearchSpec.restores :
    Restores ElasticsearchSpec.json ElasticsearchSpec.ofJson? where
  legible s := by simp [ElasticsearchSpec.json]
  read_encode s := by
    refine bind_of_eq_some (fields?_record (.refl _) (by decide)) ?_
    refine bind_of_eq_some (Restores.str.withDefault rfl) ?_
    exact bind_of_eq_some (Restores.uint32.withDefault rfl) rfl

theorem Elasticsearch.restores : Restores Elasticsearch.json Elasticsearch.ofJson? where
  legible es := by
    simp [Elasticsearch.json, Metadata.restores.legible, ElasticsearchSpec.restores.legible]
  read_encode es := by
    refine bind_of_eq_some (fields?_record (.refl _) (by decide)) ?_
    refine bind_of_eq_some (Metadata.restores.required rfl) ?_
    exact bind_of_eq_some (ElasticsearchSpec.restores.withDefault rfl) rfl

/-! ## Instances -/

theorem InlineAuth.restores : Restores InlineAuth.json InlineAuth.ofJson? where
  legible a := by simp [InlineAuth.json]
  read_encode a := by
    refine bind_of_eq_some (fields?_record (.refl _) (by decide)) ?_
    refine bind_of_eq_some (Restores.str.required rfl) ?_
    exact bind_of_eq_some (Restores.str.required rfl) rfl

namespace Backend

theorem restoresAuth : Restores authJson authOfJson? where
  legible inline :=
    legible_record.2 (forall_mem_member?.2 fun a _ => InlineAuth.restores.legible a)
  read_encode inline := by
    refine bind_of_eq_some (fields?_record (sublist_member?_names ..) (by decide)) ?_
    exact InlineAuth.restores.optional (fun _ => nofun) (by simp)

theorem restores : Restores Backend.json Backend.ofJson? where
  legible b := by
    refine legible_record.2 (List.forall_mem_append.2 ⟨?_, ?_⟩)
    · simp [restoresAuth.legible]
    · exact forall_mem_member?.2 fun s _ => legible_str s
  read_encode b := by
    have hnames := (List.Sublist.refl ["url", "auth"]).append
      (sublist_member?_names "ca_cert_secret" .str b.caCertSecret)
    refine bind_of_eq_some (fields?_record (by simpa using hnames) (by decide)) ?_
    refine bind_of_eq_some (Restores.str.withDefault rfl) ?_
    refine bind_of_eq_some (restoresAuth.withDefault rfl) ?_
    refine bind_of_eq_some (Restores.str.optional (fun _ => nofun) (a := b.caCertSecret) ?_) rfl
    simp [List.lookup_cons]

end Backend

theorem KibanaSpec.restores : Restores KibanaSpec.json KibanaSpec.ofJson? where
  legible s := by simp [KibanaSpec.json, Backend.restores.legible]
  read_encode s := by
    refine bind_of_eq_some (fields?_record (.refl _) (by decide)) ?_
    refine bind_of_eq_some (Restores.str.withDefault rfl) ?_
    refine bind_of_eq_some (Restores.uint32.withDefault rfl) ?_
    exact bind_of_eq_some (Backend.restores.withDefault rfl) rfl

theorem Kibana.restores : Restores Kibana.json Kibana.ofJson? where
  legible kb := by
    simp [Kibana.json, Metadata.restores.legible, KibanaSpec.restores.legible]
  read_encode kb := by
    refine bind_of_eq_some (fields?_record (.refl _) (by decide)) ?_
    refine bind_of_eq_some (Metadata.restores.required rfl) ?_
    exact bind_of_eq_some (KibanaSpec.restores.withDefault rfl) rfl

/-! ## Secrets -/

theorem Secret.restores : Restores Secret.json Secret.ofJson? where
  legible s := by
    simp [Secret.json, Metadata.restores.legible, Restores.uint8.list.dict.legible]
  read_encode s := by
    refine bind_of_eq_some (fields?_record (.refl _) (by decide)) ?_
    refine bind_of_eq_some (Metadata.restores.required rfl) ?_
    exact bind_of_eq_some (Restores.uint8.list.dict.withDefault rfl) rfl

/-! ## Objects -/

/-- The JSON text of an object, read as an object of its kind, gives back the object: whatever
stands in its texts, maps and lists, whichever of its optional parts are there. -/
theorem Object.read?_render_json (o : Object) :
    (Json.read? (Json.render o.json)).bind (Object.ofJson? o.kind) = some o := by
  -- reading an object is reading what it is an object of
  have hread {α : Type} {encode : α → Json} {read : Json → Option α} (h : Restores encode read)
      (f : α → Object) (a : α) :
      (Json.read? (Json.render (encode a))).bind (fun v => (read v).map f) = some (f a) := by
    exact (Option.map_bind ..).symm.trans (congrArg _ (h.read?_render a))
  cases o with
  | association a => exact hread Association.restores .association a
  | elasticsearch es => exact hread Elasticsearch.restores .elasticsearch es
  | kibana kb => exact hread Kibana.restores .kibana kb
  | secret s => exact hread Secret.restores .secret s

end ClusterLink
