import BootConfig.Proofs.Load.Absorb
import BootConfig.Proofs.Load.Failure
import BootConfig.Proofs.Schema.Alike
import BootConfig.Proofs.Session.Settings

/-!
# What a load leaves alone

Whether a document is accepted does not depend on the settings that it is laid over, nor do its
faults. If it is accepted, the leaves that it has keys for get what they would get over any other
settings, and all others keep what they hold.

* `Sectioned.absorb_failure`: a document fails over all settled settings for the same reason.
* `Sectioned.leaf?_absorb`: the leaves after a document has been laid over settled settings.
* `Load.run_frame`: a load over reachable settings beside the same load over the defaults.
-/

namespace BootConfig

variable {s : Schema} {config : Setting} {upper : Entries} {l : Leaf}

/-! ## Laying a document over settings -/

/-- Over all settled settings a document fails for the same reason, if it fails. -/
theorem Sectioned.absorb_failure (hs : Sectioned s) (hw : s.WellFormed) {other : Setting}
    (hconfig : config.IsSettled s) (hother : other.IsSettled s) (path : String) (upper : Entries) :
    (s.absorb path config upper).2 = (s.absorb path other upper).2 := by
  obtain ⟨base, hbase, hlists⟩ := hconfig.toValue
  obtain ⟨base', hbase', hlists'⟩ := hother.toValue
  have hentries : config.toValue?.bind Value.entries? = some base := by rw [hbase]; rfl
  have hentries' : other.toValue?.bind Value.entries? = some base' := by rw [hbase']; rfl
  -- the faults are all that the reason depends on
  rw [hw.absorb_failure hentries, hw.absorb_failure hentries', hs.issues?_overlay hlists hlists']

/-- After a document has been laid over settled settings, each leaf holds what the check of its
field makes of the value under its key, or else of the value that the settings have held. -/
theorem Sectioned.leaf?_absorb (hs : Sectioned s) (hw : s.WellFormed) (hconfig : config.IsSettled s)
    {path : String} (h : (s.absorb path config upper).2 = none) (hl : l ∈ s.leaves) :
    ∃ v st, (config.leaf? l).bind Setting.toValue? = some v ∧ l.field.Fixes v ∧
      (s.absorb path config upper).1.leaf? l = some st ∧
      l.field.check (.value ((upper.leaf? l).getD v)) = .ok st := by
  obtain ⟨base, hbase, _⟩ := hconfig.toValue
  obtain ⟨leaf, v, hleaf, hv, hfixes⟩ := hconfig.leaf hs hl
  have hentries : config.toValue?.bind Value.entries? = some base := by rw [hbase]; rfl
  rw [hw.absorb_failure hentries] at h
  unfold Schema.absorb
  rw [hentries]
  dsimp only
  cases hchecked : s.check (.map (Entries.overlay base upper)) with
  | error issues =>
    rw [hchecked] at h
    cases h
  | ok checked =>
    obtain ⟨st, hst, hcheck⟩ := hs.leaf?_checkOverlay hentries hchecked hl hleaf hv hfixes.plain
    refine ⟨v, st, by rw [hleaf]; exact hv, hfixes, ?_, hcheck⟩
    rw [← hst]
    exact hs.leaf?_commit hchecked (hconfig.inSections hs) (hw.commit_checked hchecked config) l hl

/-! ## Loads -/

namespace Load

variable {files : FileTree} {env : Environment} {r : Request}

/-- A load that comes to a document lays it over the settings. What it returns then depends on the
settings only by what becomes of the document. -/
theorem run_document (h : document? files env r = some upper) :
    ∃ fingerprint, ∀ s config metric,
      (run s files env r config metric).config = (s.absorb r.path config upper).1 ∧
      (run s files env r config metric).result = match (s.absorb r.path config upper).2 with
        | some f => .error f
        | none => .ok fingerprint := by
  unfold document? at h
  obtain ⟨content, hread, h⟩ := Option.bind_eq_some_iff.mp h
  obtain ⟨content', hexpand, h⟩ := Option.bind_eq_some_iff.mp h
  obtain ⟨v, hv, hentries⟩ := Option.bind_eq_some_iff.mp h
  refine ⟨Sha256.hex content, fun s config metric => ?_⟩
  have hview : v.view = .map upper := by
    unfold Value.entries? at hentries
    split at hentries
    · rename_i hmap
      rw [hmap, Option.some.inj hentries]
    · cases hentries
  have happly : apply s r.path config content' =
      ((s.absorb r.path config upper).1, [], (s.absorb r.path config upper).2) := by
    unfold apply
    rw [eq_ok_of_toOption hv]
    simp only [hview]
  unfold run
  rw [eq_ok_of_toOption hread]
  -- the fingerprint is that of the content before expansion
  simp only [eq_ok_of_toOption hexpand, happly]
  cases (s.absorb r.path config upper).2 <;> exact ⟨rfl, rfl⟩

/-- A document over two settled settings: both loads come to the same, and if they succeed, a leaf
that the document has a key for is the same in both, and one that it has none for holds what it has
held. -/
theorem run_settled (hs : Sectioned s) (hw : s.WellFormed) {other : Setting}
    (hconfig : config.IsSettled s) (hother : other.IsSettled s)
    (hdocument : document? files env r = some upper) (metric metric' : Metric) :
    (run s files env r config metric).result = (run s files env r other metric').result ∧
      ∀ fingerprint, (run s files env r config metric).result = .ok fingerprint →
        ∀ l ∈ s.leaves, match upper.leaf? l with
          | some v => ∃ st, l.field.check (.value v) = .ok st ∧
            (run s files env r config metric).config.leaf? l = some st ∧
            (run s files env r other metric').config.leaf? l = some st
          | none => ∃ v, (config.leaf? l).bind Setting.toValue? = some v ∧
            (run s files env r config metric).config.leaf? l = some (.value v) := by
  obtain ⟨fingerprint, hrun⟩ := run_document hdocument
  obtain ⟨hafter, hresult⟩ := hrun s config metric
  obtain ⟨hafter', hresult'⟩ := hrun s other metric'
  have hsame := hs.absorb_failure hw hconfig hother r.path upper
  refine ⟨by rw [hresult, hresult', hsame], fun found hfound l hl => ?_⟩
  have hnone : (s.absorb r.path config upper).2 = none := by
    rw [hresult] at hfound
    cases hfailure : (s.absorb r.path config upper).2 with
    | none => rfl
    | some f =>
      rw [hfailure] at hfound
      cases hfound
  obtain ⟨v, st, hv, hfixes, hst, hcheck⟩ := hs.leaf?_absorb hw hconfig hnone hl
  obtain ⟨v', st', _, _, hst', hcheck'⟩ := hs.leaf?_absorb hw hother (hsame ▸ hnone) hl
  rw [hafter, hafter']
  cases hleaf : upper.leaf? l with
  | some w =>
    -- the same value is checked for the same field
    rw [hleaf, Option.getD_some] at hcheck hcheck'
    rw [hcheck] at hcheck'
    cases hcheck'
    exact ⟨st, hcheck, hst, hst'⟩
  | none =>
    -- the value that has been written out is its own check
    rw [hleaf, Option.getD_none, hfixes.check] at hcheck
    cases hcheck
    exact ⟨v, hv, hst⟩

/-- **What a load changes, and on what it depends.** Let a file contain a mapping, after expansion
if it is asked for. Whatever settings a session has come to, the load of the file over them comes to
the same as its load over the defaults: both succeed, or both fail, with the same faults in the same
order. If they succeed, a leaf that the mapping has a key for gets the same in both, and a leaf that
it has no key for keeps the value that it has had, also if the mapping mentions its section. -/
theorem run_frame {fresh : Setting} (hconfig : Session.Reachable Ingester.schema config)
    (hfresh : Ingester.schema.defaults = .ok fresh) (hdocument : document? files env r = some upper)
    (metric metric' : Metric) :
    let loaded := run Ingester.schema files env r config metric
    let anew := run Ingester.schema files env r fresh metric'
    loaded.result = anew.result ∧
      ∀ fingerprint, loaded.result = .ok fingerprint →
        ∀ l ∈ Ingester.schema.leaves, match upper.leaf? l with
          | some v => ∃ st, l.field.check (.value v) = .ok st ∧
            loaded.config.leaf? l = some st ∧ anew.config.leaf? l = some st
          | none => ∃ v, (config.leaf? l).bind Setting.toValue? = some v ∧
            loaded.config.leaf? l = some (.value v) := by
  have hw : Ingester.schema.WellFormed := Ingester.wellFormed _ (by simp [Ingester.schemas])
  have hsettled := Ingester.sectioned.settled_check Ingester.exact hfresh
  exact run_settled Ingester.sectioned hw (Ingester.isSettled_of_reachable hconfig) hsettled
    hdocument metric metric'

/-- A file that gives one port, loaded over settings in which another port and the log level have
been assigned. -/
theorem run_frame_onePort :
    let files : FileTree := ⟨["srv"], [(["srv", "cfg.yaml"],
      .file (Utf8.ofString "server: \x7bhttp_listen_port: $\x7bPORT:81\x7d\x7d"))]⟩
    let r : Request := ⟨"cfg.yaml", true⟩
    let steps : List Session.Step := [.assign ["server", "metrics_port"] (.int 9100),
      .assign ["log"] (.map [(.text (Text.ofString "level"), .string "error")])]
    ∃ s fresh upper fingerprint,
      Session.begin Ingester.schema files Environment.empty = .ok s ∧
      Session.Reachable Ingester.schema (s.after steps).config ∧
      Ingester.schema.defaults = .ok fresh ∧ document? files Environment.empty r = some upper ∧
      (Ingester.schema.leaves.filter fun l => (upper.leaf? l).isSome).map Leaf.path =
        ["server.http_listen_port"] ∧
      let loaded := run Ingester.schema files Environment.empty r (s.after steps).config Metric.new
      let anew := run Ingester.schema files Environment.empty r fresh Metric.new
      loaded.result = .ok fingerprint ∧ loaded.result = anew.result ∧
        ∀ l ∈ Ingester.schema.leaves, match upper.leaf? l with
          | some v => ∃ st, l.field.check (.value v) = .ok st ∧
            loaded.config.leaf? l = some st ∧ anew.config.leaf? l = some st
          | none => ∃ v, ((s.after steps).config.leaf? l).bind Setting.toValue? = some v ∧
            loaded.config.leaf? l = some (.value v) := by
  intro files r steps
  have hloads : ((Session.begin Ingester.schema files Environment.empty).toOption.any fun s =>
      (run Ingester.schema files Environment.empty r (s.after steps).config
        Metric.new).result.toOption.isSome) = true := by decide +kernel
  have hleaves : ((document? files Environment.empty r).any fun upper =>
      (Ingester.schema.leaves.filter fun l => (upper.leaf? l).isSome).map Leaf.path ==
        ["server.http_listen_port"]) = true := by decide +kernel
  simp only [Option.any_eq_true, beq_iff_eq] at hloads hleaves
  obtain ⟨s, hs, hloads⟩ := hloads
  obtain ⟨upper, hupper, hpaths⟩ := hleaves
  obtain ⟨fingerprint, hresult⟩ := Option.isSome_iff_exists.mp hloads
  have hresult := eq_ok_of_toOption hresult
  have hbegin := eq_ok_of_toOption hs
  have hreachable : Session.Reachable Ingester.schema (s.after steps).config :=
    ⟨_, _, s, _, hbegin, rfl⟩
  unfold Session.begin at hbegin
  cases hfresh : Ingester.schema.defaults with
  | error issues =>
    rw [hfresh] at hbegin
    cases hbegin
  | ok fresh =>
    obtain ⟨hsame, hleaves⟩ := run_frame hreachable hfresh hupper Metric.new Metric.new
    exact ⟨s, fresh, upper, fingerprint, eq_ok_of_toOption hs, hreachable, rfl, hupper, hpaths,
      hresult, hsame, hleaves fingerprint hresult⟩

end Load

end BootConfig
