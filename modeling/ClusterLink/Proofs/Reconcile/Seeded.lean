import ClusterLink.Proofs.Reconcile.Target
import ClusterLink.Proofs.Store.Seeding
import ClusterLink.Proofs.Text.Decoding

/-! The way of a seeded text to a Kibana instance. A secret holds the octets of each text of its
seed, and reads every one of them back. A reconcile carries the password that it read through all
of its stages (`Stage.Carries`), so it writes no other one, whatever else it is answered; and left
alone it gets the password to the instance. -/

namespace ClusterLink

open Reconcile

/-! ## The secret of a seed -/

theorem Dict.lookup_map {κ ν μ : Type} [Ord κ] (f : ν → μ) (key : κ) (l : List (κ × ν)) :
    lookup key (l.map fun e => (e.1, f e.2)) = (lookup key l).map f := by
  induction l with
  | nil => rfl
  | cons e l ih =>
    simp only [List.map_cons, Dict.lookup, ih]
    split <;> rfl

namespace SeedSecret

theorem entries_secret (seed : SeedSecret) :
    seed.secret.data.entries = seed.stringData.entries.map fun e => (e.1, Utf8.encode e.2) := by
  have hsorted : (seed.stringData.entries.map fun e => (e.1, Utf8.encode e.2)).Pairwise
      fun a b => compare a.1 b.1 = .lt := List.pairwise_map.2 seed.stringData.sorted
  have h := Dict.entries_foldl_insert (d := ∅) hsorted
  rwa [List.foldl_map] at h

/-- Every text comes back from its octets. -/
theorem text?_secret (seed : SeedSecret) (name : String) :
    seed.secret.text? name = seed.stringData.find? name := by
  rw [Secret.text?, Dict.find?, entries_secret, Dict.lookup_map, Option.map_map]
  simp [Function.comp_def, Utf8.decodeLossy_encode, Dict.find?]

/-- A store holds what the seed says. -/
def StoredIn (seed : SeedSecret) (s : Store) : Prop :=
  ∃ stored, s.secrets.find? seed.key = some stored ∧ stored.data = seed.secret.data

/-- The last secret of a key is what a document makes of it, whatever store it meets. -/
theorem storedIn_apply {seed : SeedSecret} {d : SeedDocument} {before after : List SeedSecret}
    (hd : d.secrets = before ++ seed :: after) (hlast : ∀ later ∈ after, later.key ≠ seed.key)
    (s : Store) : seed.StoredIn (d.apply s) := by
  let earlier := d.entries .elasticsearch ++ d.entries .kibana ++
    before.map fun other => Object.secret other.secret
  let later := (after.map fun other => Object.secret other.secret) ++ d.entries .association
  have hobjects : d.objects = earlier ++ [.secret seed.secret] ++ later := by
    simp [SeedDocument.objects, SeedDocument.entries, hd, earlier, later]
  have hlater : Store.entriesAt later .secret seed.key = [] := by
    refine List.filter_eq_nil_iff.2 fun o ho => ?_
    rcases List.mem_append.1 ho with ho | ho
    · obtain ⟨other, hother, rfl⟩ := List.mem_map.1 ho
      exact fun h => hlast other hother (of_decide_eq_true h).2
    · simp [SeedDocument.kind_of_mem_entries ho]
  obtain ⟨new, hover, hwrote⟩ := (s.seeded earlier).wrote_edit_apply (.secret seed.secret)
  have hfound : (d.apply s).find? .secret seed.key = some new := by
    rw [SeedDocument.apply_eq_seeded, hobjects, Store.seeded_append,
      Store.find?_seeded_of_entriesAt_eq_nil hlater, Store.seeded_concat]
    exact hwrote.found
  obtain ⟨stored, hstored, rfl⟩ := Option.map_eq_some_iff.1 hfound
  exact ⟨stored, hstored, Object.Body.secret.inj hover.body⟩

end SeedSecret

/-! ## What a reconcile comes to ask -/

/-- A program may come to make a call, if it is given only answers that may be given. -/
inductive Calls.Asks {α : Type} (May : (q : Call) → q.Answer → Prop) : Calls α → Call → Prop where
  | now {q next} : Asks May (.ask q next) q
  | later {q next answer asked} (h : May q answer) (hnext : Asks May (next answer) asked) :
    Asks May (.ask q next) asked

/-- The cluster that is read has the secret of a seed as its users secret, and that secret reads as
the seed has it. Nothing is said of any other answer. -/
def SeedSecret.Served (seed : SeedSecret) : (q : Call) → q.Answer → Prop
  | .getElasticsearch _, .ok es => es.usersSecret = seed.key
  | .getSecret key, .ok secret => key = seed.key → secret.data = seed.secret.data
  | _, _ => True

namespace Reconcile.Stage

variable {seed : SeedSecret} {password : String} {s : Stage} {call : Call}
  {next : call.Answer → Stage} {answer : call.Answer} {kb : Kibana}

/-- The cluster of a stage has its passwords in the secret of a key, and the password that the stage
has read is the given one. -/
def Carries (users : Key) (password : String) : Stage → Prop
  | .readUsers _ es => es.usersSecret = users
  | .readCa _ _ p => p = password
  | .readKibana _ expected => expected.inline = some ⟨Elasticsearch.kibanaUser, password⟩
  | .configure _ kb => kb.spec.backend.inline = some ⟨Elasticsearch.kibanaUser, password⟩
  | _ => True

theorem carries_reported (users : Key) (password : String) (a : Association) (new : Status)
    (error : Option ReconcileError) : (reported a new error).Carries users password := by
  unfold reported
  split <;> trivial

theorem carries_opened (users : Key) (password : String) (key : Key) (a : Association) :
    (opened key a).Carries users password := by
  unfold opened
  repeat' split
  all_goals trivial

theorem carries_finalized (users : Key) (password : String) (a : Association) :
    (finalized a).Carries users password := by
  unfold finalized
  split <;> trivial

/-- One answer, if it says what the seed says. -/
theorem Carries.of_served (hs : s.Carries seed.key password)
    (hseed : seed.stringData.find? Elasticsearch.kibanaUser = some password)
    (hv : s.view = .inr ⟨call, next⟩) (hserved : seed.Served call answer) :
    (next answer).Carries seed.key password := by
  cases s <;> simp only [view, reduceCtorEq, Sum.inr.injEq, Sigma.mk.injEq] at hv
  all_goals obtain ⟨rfl, hv⟩ := hv; cases hv
  case fetch key =>
    cases answer with
    | error e => trivial
    | ok a => exact carries_opened ..
  case register a | release a =>
    cases answer with
    | error e => trivial
    | ok stored => exact carries_finalized ..
  case unwatchKibana | unwatchElasticsearch => trivial
  case watchElasticsearch a | watchKibana a =>
    cases answer with
    | error e => exact carries_reported ..
    | ok => trivial
  case readElasticsearch a =>
    cases answer with
    | error e =>
      simp only
      split <;> exact carries_reported ..
    | ok es => exact hserved
  case readUsers a es =>
    cases answer with
    | error e => exact carries_reported ..
    | ok users =>
      have hread : users.text? Elasticsearch.kibanaUser = some password := by
        rw [Secret.text?, show users.data = seed.secret.data from hserved hs]
        exact (seed.text?_secret _).trans hseed
      simp only [hread]
      rfl
  case readCa a es p =>
    cases answer with
    | error e => exact carries_reported ..
    | ok ca =>
      obtain rfl : p = password := hs
      rfl
  case readKibana a expected =>
    cases answer with
    | error e => exact carries_reported ..
    | ok kb =>
      simp only
      split
      next => exact carries_reported ..
      next => exact hs
  case configure => cases answer <;> exact carries_reported ..
  case storeStatus => cases answer <;> trivial

theorem eq_configure_of_view {next : (Call.updateKibana kb).Answer → Stage}
    (hv : s.view = .inr ⟨.updateKibana kb, next⟩) : ∃ a, s = .configure a kb := by
  cases s <;> simp only [view, reduceCtorEq, Sum.inr.injEq, Sigma.mk.injEq, false_and] at hv
  case configure a kb' =>
    cases hv.1
    exact ⟨a, rfl⟩

/-- Whatever instance is written, it is written with the text of the seed. -/
theorem Carries.inline_of_asks (hs : s.Carries seed.key password)
    (hseed : seed.stringData.find? Elasticsearch.kibanaUser = some password)
    (h : Calls.Asks seed.Served s.program (.updateKibana kb)) :
    kb.spec.backend.inline = some ⟨Elasticsearch.kibanaUser, password⟩ := by
  induction s using Stage.program.induct with
  | case1 s o hv =>
    rw [program_eq_done hv] at h
    cases h
  | case2 s call next hv ih =>
    rw [program_eq_ask hv fun _ => rfl] at h
    cases h with
    | now =>
      obtain ⟨a, rfl⟩ := eq_configure_of_view hv
      exact hs
    | later hserved hnext => exact ih _ (hs.of_served hseed hv hserved) hnext

end Reconcile.Stage

variable {c : Cluster} {a : Association} {es : Elasticsearch} {kb : Kibana} {seed : SeedSecret}
  {text : String}

/-- Left alone, a reconcile gets the text of a seed to the Kibana instance. -/
theorem Tied.inline_alone (h : Tied c a es kb) (hkeyed : c.store.Keyed) (hplain : c.store.Plain)
    (husers : es.usersSecret = seed.key) (hstored : seed.StoredIn c.store)
    (hca : c.store.secrets.contains es.caSecret)
    (htext : seed.stringData.find? Elasticsearch.kibanaUser = some text) :
    ∃ kb', ((reconcile a.key).alone c.calm).2.store.kibanas.find? a.spec.kibana = some kb' ∧
      kb'.spec.backend.inline = some ⟨Elasticsearch.kibanaUser, text⟩ := by
  obtain ⟨users, hfound, hdata⟩ := hstored
  obtain ⟨ca, hca⟩ := Option.isSome_iff_exists.1 hca
  have hread : users.text? Elasticsearch.kibanaUser = some text := by
    rw [Secret.text?, hdata]
    exact (seed.text?_secret _).trans htext
  have hb : c.content.backend? a = some (backendFor es text ca) := by
    have hca : c.store.secrets.find? es.caSecret = some ca := hca
    simp [Stage.backend?_of_elasticsearch h.elasticsearch, husers, hfound, hread, hca]
  obtain ⟨kb', hkb', hbackend⟩ := h.backend_alone hkeyed hplain hb
  exact ⟨kb', hkb', by rw [hbackend]; rfl⟩

/-- **A seeded text reaches the Kibana instance as it is.** The secret of a seed has the octets of
the texts of the seed and no other entries, and each of them reads as the text that was given. A
document puts the secret into any store, unless it has a later one for the same key. Where a cluster
has its passwords in that secret, a reconcile writes the text of the seed and no other password,
whatever else it is answered; and it does so if it is left alone and the other ends are there. -/
theorem seeded_text_reaches_kibana (seed : SeedSecret) :
    seed.secret.data.entries = seed.stringData.entries.map (fun e => (e.1, Utf8.encode e.2)) ∧
    (∀ name, seed.secret.text? name = seed.stringData.find? name) ∧
    (∀ (d : SeedDocument) before after s, d.secrets = before ++ seed :: after →
      (∀ later ∈ after, later.key ≠ seed.key) → seed.StoredIn (d.apply s)) ∧
    ∀ text, seed.stringData.find? Elasticsearch.kibanaUser = some text →
      (∀ key kb, Calls.Asks seed.Served (reconcile key) (.updateKibana kb) →
        kb.spec.backend.inline = some ⟨Elasticsearch.kibanaUser, text⟩) ∧
      ∀ c a es kb, c.store.Reachable Edit.IsPlain → Tied c a es kb → es.usersSecret = seed.key →
        seed.StoredIn c.store → c.store.secrets.contains es.caSecret →
        ∃ kb', ((reconcile a.key).alone c.calm).2.store.kibanas.find? a.spec.kibana = some kb' ∧
          kb'.spec.backend.inline = some ⟨Elasticsearch.kibanaUser, text⟩ := by
  refine ⟨seed.entries_secret, seed.text?_secret, fun d before after s hd hlast =>
    SeedSecret.storedIn_apply hd hlast s, fun text htext => ⟨fun key kb hasks => ?_,
    fun c a es kb hs h husers hstored hca =>
      h.inline_alone hs.keyed hs.plain husers hstored hca htext⟩⟩
  rw [reconcile_eq_program] at hasks
  exact Stage.Carries.inline_of_asks (s := .fetch key) trivial htext hasks

/-- A password with octets of every length, among them the character that stands for what is no
text. -/
theorem seeded_text_reaches_kibana_of_any_length :
    let text := "a\x00é\uFFFD😀"
    let es : Elasticsearch := ⟨.new ⟨"ns", "es"⟩, ⟨"8.0", 1⟩⟩
    let seed : SeedSecret := ⟨es.usersSecret, .ofList [(Elasticsearch.kibanaUser, text)]⟩
    let kb : Kibana := ⟨.new ⟨"ns", "kb"⟩, ⟨"8.0", 1, ⟨"", none, none⟩⟩⟩
    let a : Association := ⟨.new ⟨"ns", "a"⟩, ⟨es.key, kb.key⟩, .unknown⟩
    let d : SeedDocument := ⟨[es], [kb], [seed, ⟨es.caSecret, ∅⟩], [a]⟩
    let c : Cluster := ⟨d.apply (.new 4), .empty⟩
    ∃ kb', ((reconcile a.key).alone c.calm).2.store.kibanas.find? kb.key = some kb' ∧
      kb'.spec.backend.inline = some ⟨Elasticsearch.kibanaUser, text⟩ := by
  intro text es seed kb a d c
  have hs : c.store.Reachable Edit.IsPlain := by
    rw [show c.store = (d.objects.map Edit.apply).foldl Store.edit (.new 4) from rfl]
    exact .edits (.new 4) (by decide)
  obtain ⟨-, -, happly, hreconcile⟩ := seeded_text_reaches_kibana seed
  have htied : Tied c (Table.created (.generated 4) a) (Table.created (.generated 0) es)
      (Table.created (.generated 1) kb) :=
    ⟨by decide, by decide, by decide, by decide, by decide, by decide⟩
  have htext : seed.stringData.find? Elasticsearch.kibanaUser = some text :=
    Dict.find?_insert_self ..
  have hstored : seed.StoredIn c.store :=
    happly d [] [⟨es.caSecret, ∅⟩] (.new 4) rfl (by decide)
  have hwritten := (hreconcile text htext).2 c _ _ _ hs htied rfl hstored (by decide)
  exact hwritten

end ClusterLink
