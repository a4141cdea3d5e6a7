import ClusterLink.Seed
import ClusterLink.Proofs.Cluster.Redacted
import ClusterLink.Proofs.Text.Outline

/-! What outlines disclose of secrets. The outline of a secret, of a user name with its password and
of a Kibana instance is that of the value without its secret content. A secret that is given as text
is outlined with its texts, alone and in a document, and these can be told from the outline
(`Confidential.outline_discloses_seeds_only`). -/

namespace ClusterLink

/-! ## What is hidden -/

theorem Secret.outline_eq_of_redacted {s t : Secret} (h : s.redacted = t.redacted) :
    s.outline = t.outline := by
  have hmetadata : s.metadata = t.metadata := congrArg Prod.fst h
  have hkeys : s.data.keys = t.data.keys := congrArg Prod.snd h
  rw [Secret.outline, Secret.outline, hmetadata, hkeys]

theorem InlineAuth.outline_eq_of_username {a b : InlineAuth} (h : a.username = b.username) :
    a.outline = b.outline := by
  rw [InlineAuth.outline, InlineAuth.outline, h]

theorem Backend.outline_redacted (b : Backend) : b.redacted.outline = b.outline := by
  obtain ⟨url, inline, caCertSecret⟩ := b
  cases inline <;> rfl

/-- The instance without the password that is embedded in it. -/
def Kibana.withoutPassword (kb : Kibana) : Kibana := kb.withBackend kb.spec.backend.redacted

theorem Kibana.outline_withoutPassword (kb : Kibana) :
    kb.withoutPassword.outline = kb.outline := by
  have hbackend := kb.spec.backend.outline_redacted
  simp only [withoutPassword, withBackend, Kibana.outline, KibanaSpec.outline, hbackend]

theorem Kibana.outline_eq_of_withoutPassword {kb kb' : Kibana}
    (h : kb.withoutPassword = kb'.withoutPassword) : kb.outline = kb'.outline := by
  rw [← kb.outline_withoutPassword, h, kb'.outline_withoutPassword]

/-! ## Secrets given as text -/

namespace SeedSecret

/-- What a secret given as text is without its texts. -/
def redacted (s : SeedSecret) : Key × List String := (s.key, s.stringData.keys)

variable {s t : SeedSecret}

theorem outline_alike (h : s.redacted = t.redacted) : s.outline.Alike t.outline := by
  have hkey : s.key = t.key := congrArg Prod.fst h
  have hnames : s.stringData.keys = t.stringData.keys := congrArg Prod.snd h
  rw [SeedSecret.outline, SeedSecret.outline, hkey]
  have htexts := Outline.alikeEntries_of_names hnames
  exact .record <| .cons (.same _) <| .cons (.same _) <| .cons (.map htexts) .nil

theorem outline_inj (h : s.outline = t.outline) : s = t := by
  obtain ⟨⟨space, name⟩, data⟩ := s
  obtain ⟨⟨space', name'⟩, data'⟩ := t
  simp only [SeedSecret.outline, Outline.record.injEq, List.cons.injEq, Prod.mk.injEq,
    Outline.map.injEq, true_and, and_true] at h
  obtain ⟨hspace, hname, hdata⟩ := h
  rw [Outline.text_inj hspace, Outline.text_inj hname, Dict.ext_entries (Outline.texts_inj hdata)]

theorem render_eq_iff (h : s.redacted = t.redacted) :
    s.outline.render = t.outline.render ↔ s = t :=
  (outline_alike h).render_eq_iff.trans ⟨outline_inj, congrArg outline⟩

end SeedSecret

/-! ## Documents -/

namespace SeedDocument

/-- Two documents that differ in embedded passwords and in the texts of secrets alone. -/
structure SameButSecrets (d e : SeedDocument) : Prop where
  elasticsearch : d.elasticsearch = e.elasticsearch
  kibana : d.kibana.map Kibana.withoutPassword = e.kibana.map Kibana.withoutPassword
  secrets : d.secrets.map SeedSecret.redacted = e.secrets.map SeedSecret.redacted
  associations : d.associations = e.associations

namespace SameButSecrets

variable {d e : SeedDocument}

theorem kibana_outlines (h : d.SameButSecrets e) :
    d.kibana.map Kibana.outline = e.kibana.map Kibana.outline := by
  have hfactor : Kibana.outline ∘ Kibana.withoutPassword = Kibana.outline :=
    funext Kibana.outline_withoutPassword
  simpa only [List.map_map, hfactor] using congrArg (List.map Kibana.outline) h.kibana

theorem outline_alike (h : d.SameButSecrets e) : d.outline.Alike e.outline := by
  rw [SeedDocument.outline, SeedDocument.outline, h.elasticsearch, h.kibana_outlines,
    h.associations]
  have hsecrets : Outline.AlikeItems (d.secrets.map SeedSecret.outline)
      (e.secrets.map SeedSecret.outline) :=
    Outline.alikeItems_map (fun _ _ => SeedSecret.outline_alike) h.secrets
  exact .record <| .cons (.same _) <| .cons (.same _) <| .cons (.list hsecrets) <|
    .cons (.same _) .nil

theorem render_eq_iff (h : d.SameButSecrets e) :
    d.outline.render = e.outline.render ↔ d.secrets = e.secrets := by
  rw [h.outline_alike.render_eq_iff]
  constructor
  · intro he
    simp only [SeedDocument.outline, Outline.record.injEq, List.cons.injEq, Prod.mk.injEq,
      Outline.list.injEq, true_and] at he
    obtain ⟨-, -, hsecrets, -⟩ := he
    exact (List.map_inj_right fun _ _ => SeedSecret.outline_inj).1 hsecrets
  · intro he
    rw [SeedDocument.outline, SeedDocument.outline, h.elasticsearch, h.kibana_outlines,
      h.associations, he]

end SameButSecrets

end SeedDocument

/-! ## All values with secret content -/

/-- A value with secret content. -/
inductive Confidential where
  | secret (s : Secret)
  | auth (a : InlineAuth)
  | kibana (kb : Kibana)
  | seed (s : SeedSecret)
  | document (d : SeedDocument)

namespace Confidential

def outline : Confidential → Outline
  | .secret s => s.outline
  | .auth a => a.outline
  | .kibana kb => kb.outline
  | .seed s => s.outline
  | .document d => d.outline

/-- The secrets in a value that are given as text. -/
def seeds : Confidential → List SeedSecret
  | .seed s => [s]
  | .document d => d.secrets
  | _ => []

/-- Two values of one type that differ in octets of secrets, in passwords and in the texts of
secrets given as text alone. -/
inductive SameButSecrets : Confidential → Confidential → Prop
  | secret {s t : Secret} : s.redacted = t.redacted → SameButSecrets (.secret s) (.secret t)
  | auth {a b : InlineAuth} : a.username = b.username → SameButSecrets (.auth a) (.auth b)
  | kibana {kb kb' : Kibana} :
    kb.withoutPassword = kb'.withoutPassword → SameButSecrets (.kibana kb) (.kibana kb')
  | seed {s t : SeedSecret} : s.redacted = t.redacted → SameButSecrets (.seed s) (.seed t)
  | document {d e : SeedDocument} :
    d.SameButSecrets e → SameButSecrets (.document d) (.document e)

/-- Of values that differ in secret content alone, the rendered outlines are the same just if the
secrets given as text are: these are disclosed, and nothing else that is secret. -/
theorem outline_discloses_seeds_only {v w : Confidential} (h : v.SameButSecrets w) :
    v.outline.render = w.outline.render ↔ v.seeds = w.seeds := by
  cases h with
  | secret h =>
    have houtline := Secret.outline_eq_of_redacted h
    exact iff_of_true (congrArg Outline.render houtline) rfl
  | auth h =>
    have houtline := InlineAuth.outline_eq_of_username h
    exact iff_of_true (congrArg Outline.render houtline) rfl
  | kibana h =>
    have houtline := Kibana.outline_eq_of_withoutPassword h
    exact iff_of_true (congrArg Outline.render houtline) rfl
  | seed h => exact (SeedSecret.render_eq_iff h).trans List.singleton_inj.symm
  | document h => exact h.render_eq_iff

/-- A password in a secret that is given as text stands in its outline. -/
example : (SeedSecret.mk ⟨"ns", "users"⟩ (.ofList [("kibana", "hunter2")])).outline.render =
    "SeedSecret \x7b namespace: \"ns\", name: \"users\", " ++
      "string_data: \x7b\"kibana\": \"hunter2\"\x7d \x7d" := by decide +kernel

end Confidential

end ClusterLink
