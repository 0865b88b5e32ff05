import Rollout.Command.Run
import Rollout.Proofs.Compile.Separation
import Rollout.Proofs.FileTree.PathText
import Rollout.Proofs.Switch.Course
import Rollout.Proofs.Workspace.RoundTrip

/-!
# The folder that commands work from

Compiling looks for the secrets of charts from the folder of the workspace, and a switch places
files from the folder that holds the workspace document. The two are one folder exactly if what
the setting names before the document leads back to where it starts, as it does where it names
nothing; then the secrets in a project's chart are the same for both (`folders_of_commands`).
-/

namespace Rollout

open Location

/-- Whether a release has secrets is asked of one file. -/
theorem Release.hasSecrets_compile {present : Path → Bool} {root : Path} {charts : ChartTable}
    {w : Workspace} {project name key : String} {p : Project} {options : OptionMap} {chart : Path}
    (h : (compile present root charts w project p key name options).chart = .folder chart) :
    (compile present root charts w project p key name options).hasSecrets =
      present (root.join (secretsFile chart key)) := by
  rw [compile_eq] at h ⊢
  simp only at h ⊢
  rw [h]
  rfl

/-- The file in which secrets are looked for is found from the folder of the chart. -/
theorem Release.join_secretsFile (base chart : Path) (key : String) :
    base.join (secretsFile chart key) = secretsFile (base.join chart) key := by
  simp only [secretsFile, valuesFolder, Path.child, Path.join_assoc]

namespace View

variable {v : View}

theorem locate_join {base rel : Path} {l : Location}
    (hl : v.tree.follow (base.origin v.current) base.segments = .ok l)
    (hrel : rel.isAbsolute = false) (htext : rel.text ≠ "") :
    v.locate (base.join rel) =
      if isUnusable (base.join rel) then .error .unusable else v.tree.follow l rel.segments := by
  rw [locate, if_neg (base.text_join_ne htext), ← Path.follow_join hrel hl]
  rfl

/-- What is there from one path to a folder is there from another. -/
theorem exists?_join_congr {p q rel : Path} {l : Location}
    (hp : v.tree.follow (p.origin v.current) p.segments = .ok l)
    (hq : v.tree.follow (q.origin v.current) q.segments = .ok l) (htext : rel.text ≠ "")
    (husable : isUnusable (p.join rel) = isUnusable (q.join rel)) :
    v.exists? (p.join rel) = v.exists? (q.join rel) := by
  by_cases hrel : rel.isAbsolute
  · simp only [Path.join, hrel, true_or, if_true]
  · have hrel : rel.isAbsolute = false := by simpa using hrel
    rw [exists?, exists?, locate_join hp hrel htext, locate_join hq hrel htext, husable]

theorem locate_eq_follow {p : Path} {l : Location} (h : v.locate p = .ok l) :
    p.text ≠ "" ∧ v.tree.follow (p.origin v.current) p.segments = .ok l := by
  unfold locate at h
  split_ifs at h with htext
  exact ⟨htext, h⟩

/-- A path that leads on from a folder leads there first. -/
theorem follow_of_join {base rel : Path} {l : Location} (hrel : rel.isAbsolute = false)
    (h : v.locate (base.join rel) = .ok l) :
    v.tree.follow (base.origin v.current) base.segments = .ok (base.spot v.current) := by
  obtain ⟨-, h⟩ := locate_eq_follow h
  obtain ⟨xs, ys, hbase, hys, hjoin⟩ := Path.segments_join base hrel
  rw [Path.origin_join base hrel, hjoin, Tree.follow_append] at h
  have hspot : base.spot v.current = walk (base.origin v.current) xs := by
    rw [Path.spot, hbase, walk_append, walk_idle hys]
  rw [hbase, Tree.follow_append]
  cases hxs : v.tree.follow (base.origin v.current) xs with
  | error e =>
    rw [hxs] at h
    cases h
  | ok k =>
    rw [hxs] at h
    obtain rfl : k = base.spot v.current := (Tree.follow_eq_ok hxs).1.trans hspot.symm
    obtain ⟨name, rest, hsegs⟩ := List.exists_cons_of_ne_nil rel.segments_ne_nil
    have hfolder : v.tree.isFolder (base.spot v.current) :=
      (Tree.follow_eq_ok h).2.1 _ (by simp [hsegs, trail])
    exact Tree.follow_idle hfolder hys

/-- A file is named by the last segment of its path, and the folder of the path leads to where
the names before it lead. -/
theorem folder_of_file {p : Path} {content : Content}
    (h : v.locate p = .ok (p.spot v.current))
    (hfile : v.tree.get? (p.spot v.current) = some (.file content)) {names : List String}
    {last : String} (hsegs : p.segments = names ++ [last]) :
    p.folder.spot v.current = walk (p.origin v.current) names ∧
      v.tree.follow (p.folder.origin v.current) p.folder.segments =
        .ok (p.folder.spot v.current) := by
  obtain ⟨htext, h⟩ := locate_eq_follow h
  rw [hsegs, Tree.follow_append] at h
  cases hnames : v.tree.follow (p.origin v.current) names with
  | error e =>
    rw [hnames] at h
    cases h
  | ok k =>
    rw [hnames] at h
    have h : v.tree.follow k [last] = .ok (p.spot v.current) := h
    have hfolder : v.tree.isFolder k := (Tree.follow_eq_ok h).2.1 k (by simp [trail])
    have hlast : Path.isIdle last = false := by
      by_contra hidle
      have hspot : p.spot v.current = k :=
        (Tree.follow_eq_ok h).1.trans (walk_idle (by simpa using hidle))
      rw [hspot, Tree.get?_of_isFolder hfolder] at hfile
      cases hfile
    have hspot := (Path.spot_folder htext hsegs hlast v.current).1
    refine ⟨hspot, ?_⟩
    rw [hspot, ← (Tree.follow_eq_ok hnames).1]
    exact Path.follow_folder htext hsegs hlast hnames hfolder

end View

namespace Command

/-- The folder that holds the workspace document. -/
def Context.home (c : Context) : Path := Document.rootOf c.document

/-- The folder of the workspace is the folder that holds the document. -/
def Context.IsCentral (c : Context) (v : View) : Prop :=
  v.tree.follow (c.root.origin v.current) c.root.segments = .ok (c.home.spot v.current)

/-- Where compiled profiles and switches have the files of projects. -/
structure Folders (c : Context) (w : Workspace) (profiles : List Profile) (d : Disk) : Prop where
  /-- Compiling looks for the secrets of a chart from the folder of the workspace. -/
  compiled : ∀ profile ∈ profiles, ∀ r ∈ profile.deployment.releases, ∀ chart,
    r.chart = .folder chart →
      r.hasSecrets = d.exists? (c.root.join (Release.secretsFile chart profile.name))
  /-- A switch places files from the folder that holds the document. -/
  switched : ∀ suffix approves request report,
    (Switch.run (.standard c.document suffix approves) request d).1 = .ok (.switched report) →
      ∃ p, w.project request.project = .ok p ∧
        report.configFolder = (c.home.child p.root).child (Switch.configPathFor p request)
  /-- The folder is the same exactly if the names before the document lead back. -/
  central : ∀ names last, (Path.mk c.config.document).isAbsolute = false →
    (Path.mk c.config.document).segments = names ++ [last] →
      (c.IsCentral d.toView ↔ walk (c.root.spot d.current) names = c.root.spot d.current)
  /-- Then the secrets that a switch sees in a project's chart are the reported ones. -/
  secrets : c.IsCentral d.toView → ∀ profile ∈ profiles, ∀ r ∈ profile.deployment.releases,
    ∀ (p : Project) (chart : String), r.chart = .folder (Path.join ⟨p.root⟩ ⟨chart⟩) →
      let seen := Release.secretsFile ((c.home.child p.root).child chart) profile.name
      View.isUnusable (c.root.join (Release.secretsFile (Path.join ⟨p.root⟩ ⟨chart⟩)
        profile.name)) = View.isUnusable seen →
      r.hasSecrets = d.exists? seen

section

variable {producers : Producers} {settings : CompileSettings} {c : Context} {document : Path}
  {selected : List String} {profiles : List Profile} {w : Workspace} {d d' : Disk}

/-- Profiles that were compiled are those of the workspace that the document holds. -/
theorem compile_of_compileDocument
    (h : (compileDocument producers settings document selected).on d = (.ok profiles, d')) :
    ∃ w, (Document.load document).on d = (.ok w, d) ∧ w.Normal ∧
      Profile.compile producers d.exists? settings w selected = .ok profiles := by
  rw [compileDocument, DiskTask.on_bind] at h
  rcases hload : (Document.load document).on d with ⟨e | w, d''⟩
  · rw [hload] at h
    cases h
  · rw [hload] at h
    obtain ⟨content, hread, hw⟩ := Document.read_of_load hload
    have hback := Document.on_load_of_read hread
    rw [hload, hw] at hback
    obtain ⟨-, rfl⟩ := Prod.mk.inj hback
    simp only [DiskTask.on_bind, DiskTask.on_get] at h
    cases hcompile : Profile.compile producers d''.exists? settings w selected with
    | error e =>
      rw [hcompile] at h
      cases h
    | ok profiles' =>
      rw [hcompile] at h
      cases h
      exact ⟨w, rfl, Document.normal_of_read hw, hcompile⟩

/-- Whether a compiled release has secrets is asked of one file. -/
theorem hasSecrets_of_compile {present : Path → Bool} (hw : w.Normal)
    (h : Profile.compile producers present settings w selected = .ok profiles)
    {profile : Profile} (hprofile : profile ∈ profiles) {r : Release}
    (hr : r ∈ profile.deployment.releases) {chart : Path} (hchart : r.chart = .folder chart) :
    r.hasSecrets = present (settings.workspaceRoot.join
      (Release.secretsFile chart profile.name)) := by
  rw [Profile.releases_of_compile hw h hprofile] at hr
  obtain ⟨e, -, hr⟩ := List.mem_flatMap.1 hr
  unfold Profile.releasesOf Profile.planOf at hr
  split at hr
  · rename_i rs hplan
    obtain ⟨charts, own, options, rfl⟩ := ReleasePlan.exists_of_mem hplan r hr
    exact Release.hasSecrets_compile hchart
  · cases hr

section

variable {content : Content} (hlocate : d.locate c.document = .ok (c.document.spot d.current))
  (hfile : d.tree.get? (c.document.spot d.current) = some (.file content))
include hlocate hfile

/-- The folder of the workspace holds the document exactly if the names before the document lead
back. -/
theorem Context.isCentral_iff {names : List String} {last : String}
    (hrelative : (Path.mk c.config.document).isAbsolute = false)
    (hsegs : (Path.mk c.config.document).segments = names ++ [last]) :
    c.IsCentral d.toView ↔ walk (c.root.spot d.current) names = c.root.spot d.current := by
  obtain ⟨xs, ys, hroot, hys, hjoin⟩ := Path.segments_join c.root hrelative
  have hdocument : c.document.segments = (xs ++ names) ++ [last] := by
    rw [Context.document, Path.child, hjoin, hsegs, List.append_assoc]
  have hhome : c.home.spot d.current = walk (c.root.spot d.current) names := by
    rw [Context.home, Document.rootOf, (View.folder_of_file hlocate hfile hdocument).1,
      Context.document, Path.child, Path.origin_join c.root hrelative, walk_append, Path.spot,
      hroot, walk_append _ xs ys, walk_idle hys]
  rw [Context.IsCentral, View.follow_of_join hrelative hlocate, hhome, Except.ok.injEq, eq_comm]

/-- From one folder the same secrets are seen. -/
theorem Context.exists?_seen (hcentral : c.IsCentral d.toView) (project chart : Path)
    (key : String)
    (husable : View.isUnusable (c.root.join (Release.secretsFile (project.join chart) key)) =
      View.isUnusable (Release.secretsFile ((c.home.join project).join chart) key)) :
    d.exists? (c.root.join (Release.secretsFile (project.join chart) key)) =
      d.exists? (Release.secretsFile ((c.home.join project).join chart) key) := by
  have hjoin : Release.secretsFile ((c.home.join project).join chart) key =
      c.home.join (Release.secretsFile (project.join chart) key) := by
    rw [Release.join_secretsFile, ← Path.join_assoc]
  obtain ⟨names, last, hsegs⟩ :=
    (List.eq_nil_or_concat c.document.segments).resolve_left c.document.segments_ne_nil
  rw [List.concat_eq_append] at hsegs
  have hhome := (View.folder_of_file hlocate hfile hsegs).2
  rw [hjoin] at husable ⊢
  exact View.exists?_join_congr hcentral hhome (Path.text_join_ne _ (by decide)) husable

end

/-- Compiling looks for the secrets of charts from the folder of the workspace, a switch places
files from the folder that holds the document. Where these are one folder, the secrets that a
switch sees in a project's chart are the reported ones; where the setting names folders before
the document, they are one folder exactly if those lead back. -/
theorem folders_of_commands {platform : Option Platform} {registry : Option String}
    (h : (compileDocument producers (compileSettings c platform registry) c.document
      selected).on d = (.ok profiles, d')) :
    ∃ w, (Document.load c.document).on d = (.ok w, d) ∧ Folders c w profiles d := by
  obtain ⟨w, hload, hw, hcompile⟩ := compile_of_compileDocument h
  obtain ⟨content, hread, -⟩ := Document.read_of_load hload
  obtain ⟨-, hlocate, hfile⟩ := Disk.read_eq_ok.1 hread
  have hcompiled : ∀ profile ∈ profiles, ∀ r ∈ profile.deployment.releases, ∀ chart,
      r.chart = .folder chart →
        r.hasSecrets = d.exists? (c.root.join (Release.secretsFile chart profile.name)) :=
    fun profile hprofile r hr chart hchart =>
      hasSecrets_of_compile hw hcompile hprofile hr hchart
  refine ⟨w, hload, hcompiled, ?_, ?_, ?_⟩
  · intro suffix approves request report hend
    obtain ⟨o, st, rt, pr, rc, dp, workflows, -, rfl⟩ := Switch.exists_disposal hend
    obtain ⟨rfl, -⟩ : w = o.workspace ∧ d = o.base := by simpa using hload.symm.trans o.loading
    exact ⟨o.project, o.found, rfl⟩
  · intro names last hrelative hsegs
    exact Context.isCentral_iff hlocate hfile hrelative hsegs
  · intro hcentral profile hprofile r hr p chart hchart
    simp only
    intro husable
    rw [hcompiled profile hprofile r hr _ hchart]
    exact Context.exists?_seen hlocate hfile hcentral _ _ _ husable

end

/-! ### A document beside the configuration -/

namespace Sample

/-- A service with an image and a chart of its own. -/
def documentText : String :=
  "\x7b\"projects\": \x7b\"api\": \x7b\"root\": \"api\", \"architect\": \x7b" ++
    "\"build\": \x7b\"builder\": \"ko\", \"configurations\": \x7b\"dev\": \x7b\x7d\x7d\x7d, " ++
    "\"deploy\": \x7b\"deployer\": \"helm\", \"options\": \x7b\"chartPath\": \"chart\"\x7d\x7d" ++
    "\x7d\x7d\x7d\x7d"

/-- The document, and the chart with secrets in the project's folder. -/
def files : List (String × Node) :=
  [("api", .folder [("chart", .folder [("envs", .folder [("dev", .folder
      [("secrets.yaml", .file (.text "token: x"))])])])]),
    ("keel.json", .file (.text documentText))]

/-- The document is in the folder of the workspace. -/
def flat : Disk := .ofTree ⟨[("w", .folder files)]⟩ ["w"]

/-- The document is in a folder that the configuration names. -/
def nested : Disk :=
  .ofTree ⟨[("w", .folder [("conf", .folder files),
    ("keel.toml", .file (.text "[workspace]\nfile = \"conf/keel.json\"\n"))])]⟩ ["w"]

/-- What a command finds on a disk. -/
def context (d : Disk) : Context := .find d.toView (fun _ => none) none false

/-- How compiling all projects of a disk ends. -/
def compiled (d : Disk) : Except StoreError (List Profile) × Disk :=
  (compileDocument (.builtin .builtin) (compileSettings (context d) none none)
    (context d).document []).on d

/-- The charts of the releases, and whether they have secrets. -/
def charts (profiles : List Profile) : List (Chart × Bool) :=
  profiles.flatMap fun profile => profile.deployment.releases.map fun r => (r.chart, r.hasSecrets)

/-- The secrets of the service as a switch sees them. -/
def seen (d : Disk) : Path :=
  Release.secretsFile (((context d).home.child "api").child "chart") "dev"

end Sample

open Sample

/-- Where the document is in the folder of the workspace, the secrets are reported. -/
theorem flat_secrets_reported : ∃ w profiles,
    (compiled flat).1 = .ok profiles ∧ Folders (context flat) w profiles flat ∧
      (context flat).IsCentral flat.toView ∧
      charts profiles = [(.folder ⟨"api/chart"⟩, true)] ∧ flat.exists? (seen flat) := by
  have hcharts : (compiled flat).1.toOption.map charts =
      some [(.folder ⟨"api/chart"⟩, true)] := by
    decide +kernel
  rcases hcompiled : compiled flat with ⟨e | profiles, d'⟩
  · rw [hcompiled] at hcharts
    cases hcharts
  · rw [hcompiled] at hcharts
    obtain ⟨w, -, hfolders⟩ := folders_of_commands hcompiled
    refine ⟨w, profiles, rfl, hfolders, ?_, Option.some.inj hcharts, by decide +kernel⟩
    have hsegs : (Path.mk (context flat).config.document).segments = [] ++ ["keel.json"] := by
      decide +kernel
    exact (hfolders.central [] "keel.json" (by decide +kernel) hsegs).2 rfl

/-- Where the configuration names a folder before the document, a switch sees secrets that are
not reported. -/
theorem nested_secrets_unreported :
    (compiled nested).1.toOption.map charts = some [(.folder ⟨"api/chart"⟩, false)] ∧
      nested.exists? (seen nested) := by
  decide +kernel

end Command
end Rollout
