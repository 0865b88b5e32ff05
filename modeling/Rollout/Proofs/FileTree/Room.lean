import Mathlib.Tactic.Common
import Rollout.Proofs.FileTree.Above
import Rollout.Proofs.FileTree.Move

/-!
# Room for a folder

A folder can be moved to where a path leads if there is room: folders can be made along the path,
and at its end there is nothing but an empty folder at most (`Room`). These conditions are exact
(`rename_ok_iff`). Where a path does not lead anywhere there is room at its end, unless it turns
back after something that is missing (`Fits.room`).
-/

namespace Rollout

open Location DiskTask

/-! ### Where there is room -/

namespace View

/-- A path along which folders can be made, to a name for one. -/
structure Fits (v : View) (p : Path) : Prop where
  text : p.text ≠ ""
  usable : isUnusable p = false
  named : ∃ last, p.last? = some last ∧ Path.isIdle last = false ∧ last ≠ ".."
  short : ∀ n ∈ p.segments, isTooLong n = false
  /-- There is no file on the way, and none at the end. -/
  clear : ∀ s, Disk.Visits v.current p s → v.tree.Passable s

instance (v : View) (p : Path) : Decidable (v.Fits p) :=
  decidable_of_iff (p.text ≠ "" ∧ isUnusable p = false ∧
      (∃ last ∈ p.last?.toList, Path.isIdle last = false ∧ last ≠ "..") ∧
      (∀ n ∈ p.segments, isTooLong n = false) ∧
      ∀ s ∈ p.spot v.current :: trail (p.origin v.current) p.segments, v.tree.Passable s) <| by
    constructor
    · rintro ⟨htext, husable, ⟨last, hlast, hnamed⟩, hshort, hclear⟩
      refine ⟨htext, husable, ⟨last, Option.mem_toList.1 hlast, hnamed⟩, hshort, ?_⟩
      rintro s (hs | rfl)
      · exact hclear s (List.mem_cons_of_mem _ hs)
      · exact hclear _ List.mem_cons_self
    · rintro ⟨htext, husable, ⟨last, hlast, hnamed⟩, hshort, hclear⟩
      refine ⟨htext, husable, ⟨last, Option.mem_toList.2 hlast, hnamed⟩, hshort, fun s hs => ?_⟩
      rcases List.mem_cons.1 hs with rfl | hs
      · exact hclear _ (.inr rfl)
      · exact hclear s (.inl hs)

/-- Room for a folder at the end of a path. -/
structure Room (v : View) (p : Path) : Prop extends Fits v p where
  start : v.tree.isFolder (p.origin v.current)
  /-- There is an empty folder at the end at most. -/
  free : ∀ r, v.tree.get? (p.spot v.current ++ r) ≠ none → r = []
  /-- The folders on the way are not in it. -/
  apart : ∀ s, Disk.Visited (p.origin v.current) p.lead s → p.spot v.current <+: s →
    s = p.spot v.current

end View

namespace Disk

variable {p : Path} {last : String} {d : Disk}

/-- The folders on the way to a path can be made along names that meet no file. -/
theorem makeFoldersTo_ok (h : d.Fits p) (hstart : d.tree.isFolder (p.origin d.current)) :
    ((makeFoldersTo p).on d).1 = .ok () ∧ ∀ k, Visited (p.origin d.current) p.lead k →
      ((makeFoldersTo p).on d).2.tree.isFolder k := by
  obtain ⟨last, hlast, hidle, hup⟩ := h.named
  obtain ⟨q, hq, ⟨htext, hlead⟩ | ⟨htext, habove⟩⟩ := exists_above h.text hlast hidle
  · rw [on_makeFoldersTo_none hq htext]
    exact ⟨rfl, fun k hk => (visited_idle hlead).1 hk ▸ hstart⟩
  · have hclear (s : Location) (hs : Visits d.current q s) : d.tree.Passable s :=
      h.clear s ((visits_iff hlast hidle hup).2 (.inl ((habove.visits _ _).1 hs)))
    have hshort (n : String) (hn : n ∈ q.segments) : isTooLong n = false := by
      rcases habove.names n hn with hn | rfl
      · obtain ⟨slashes, hsegs, -⟩ := Path.segments_lead hlast
        exact h.short n (by simp [hsegs, hn])
      · rfl
    have hmade : ((makeFoldersFrom (q.origin d.current) q.segments).on d).1 = .ok () :=
      makeFoldersFrom_ok (habove.origin d.current ▸ hstart) hshort hclear habove.ends
    have hok : ((makeFolders q).on d).1 = .ok () := by
      rw [on_makeFolders, if_neg htext, if_neg (by simp [habove.usable h.usable])]
      change Except.mapError _ ((makeFoldersFrom (q.origin d.current) q.segments).on d).1 = _
      rw [hmade]
      rfl
    rw [on_makeFoldersTo_above hq htext]
    exact ⟨hok, fun k hk => isFolder_of_makeFolders htext hok ((habove.visits _ _).2 hk)⟩

end Disk

/-! ### Moving a folder -/

namespace Tree

/-- A location below which there is nothing holds no entries. -/
theorem entriesOf_eq_nil {t : Tree} {l : Location}
    (h : ∀ r, t.get? (l ++ r) ≠ none → r = []) : t.entriesOf l = [] := by
  cases hes : t.entriesOf l with
  | nil => rfl
  | cons entry rest =>
    exfalso
    have hthere : t.get? (l ++ [entry.1]) ≠ none := by
      unfold get? entriesOf at *
      rw [node?, Node.find?_append, ← node?, Node.find?_cons]
      cases hn : t.node? l with
      | none => simp [hn] at hes
      | some n =>
        have hentries : n.entries = entry :: rest := by simpa [hn] using hes
        simp [hentries, Dict.get?, Node.find?_nil]
    simpa using h _ hthere

end Tree

namespace View

variable {v : View} {p : Path}

theorem place_of_lead {last : String} {folder : Location} (htext : p.text ≠ "")
    (husable : isUnusable p = false) (h : p.last? = some last)
    (hdots : ¬ (last = "." ∨ last = ".."))
    (hfollow : v.tree.follow (p.origin v.current) p.lead = .ok folder)
    (hf : v.tree.isFolder folder) :
    v.place p = .ok ⟨folder, some last, decide (p.segments.reverse.head? = some "")⟩ := by
  rw [place_eq, if_neg htext, if_neg (by simp [husable]), Path.ending_eq h, placeOf,
    List.reverse_reverse]
  change (v.tree.follow (p.origin v.current) p.lead).bind _ = _
  rw [hfollow, Except.bind, if_pos hf, if_neg hdots]

/-- A path that leads to something, and does not end in dots, names its place. -/
theorem place_of_locate {l : Location} {last : String} (h : v.locate p = .ok l)
    (hlast : p.last? = some last) (hidle : Path.isIdle last = false) (hup : last ≠ "..") :
    ∃ pl, v.place p = .ok pl ∧ pl.location? = .ok l := by
  have hspot := locate_eq_spot h
  unfold locate at h
  split_ifs at h with htext husable
  obtain ⟨slashes, hsegs, -⟩ := Path.segments_lead hlast
  rw [hsegs, Tree.follow_append] at h
  cases hlead : v.tree.follow (v.start p) p.lead with
  | error e => rw [hlead] at h; cases h
  | ok folder =>
    rw [hlead] at h
    simp only [Except.bind, Tree.follow, hidle, hup, Bool.false_eq_true, if_false] at h
    split_ifs at h with hf hlong
    refine ⟨_, place_of_lead htext (by simpa using husable) hlast ?_ hlead hf, ?_⟩
    · rintro (rfl | rfl)
      · simp [Path.isIdle] at hidle
      · exact hup rfl
    · have hwalk := (Tree.follow_eq_ok hlead).1
      rw [Place.location?]
      simp only [hlong, Bool.false_eq_true, if_false]
      rw [hspot, Path.spot_lead hlast hidle hup, hwalk]
      rfl

/-- A name in a folder that a path leads to is a place. -/
theorem place_child {l : Location} {name : String} (h : v.locate p = .ok l)
    (hf : v.tree.isFolder l) (hname : Path.IsName name)
    (husable : isUnusable (p.child name) = false) (hshort : isTooLong name = false) :
    ∃ pl, v.place (p.child name) = .ok pl ∧ pl.location? = .ok (l ++ [name]) := by
  have hrel : (Path.mk name).isAbsolute = false := Path.isAbsolute_name hname
  obtain ⟨xs, ys, hsegs, hys, hchild⟩ := Path.segments_join p hrel
  rw [Path.segments_name hname] at hchild
  have hlast : (p.child name).last? = some name ∧ (p.child name).lead = xs :=
    Path.last?_eq hchild (by simp) hname.1
  unfold locate at h
  split_ifs at h
  rw [hsegs, Tree.follow_append] at h
  cases hxs : v.tree.follow (v.start p) xs with
  | error e => rw [hxs] at h; cases h
  | ok k =>
    rw [hxs] at h
    obtain rfl : l = k := ((Tree.follow_eq_ok h).1).trans (walk_idle hys)
    refine ⟨_, place_of_lead (Path.text_join_ne p hname.1) husable hlast.1 ?_ ?_ hf, ?_⟩
    · rintro (rfl | rfl)
      · exact hname.2.1 rfl
      · exact hname.2.2.1 rfl
    · rw [hlast.2]
      exact (congrArg (v.tree.follow · xs) (Path.origin_join p hrel v.current)).trans hxs
    · rw [Place.location?]
      simp only [hshort, Bool.false_eq_true, if_false]

/-- A path is a place for an entry where the folders on the way are there. -/
theorem Fits.place {v' : View} (h : v.Fits p) (hc : v'.current = v.current)
    (hfolders : ∀ k, Disk.Visited (p.origin v.current) p.lead k → v'.tree.isFolder k) :
    ∃ pl, v'.place p = .ok pl ∧ pl.location? = .ok (p.spot v.current) := by
  obtain ⟨last, hlast, hidle, hup⟩ := h.named
  obtain ⟨slashes, hsegs, -⟩ := Path.segments_lead hlast
  have hend := hfolders _ (.inr rfl)
  have hfollow : v'.tree.follow (p.origin v'.current) p.lead =
      .ok (walk (p.origin v.current) p.lead) := by
    rw [hc]
    exact Tree.follow_of_trail (fun n hn => h.short n (by simp [hsegs, hn]))
      (fun s hs => hfolders s (.inl hs)) (by simp [Tree.get?_of_isFolder hend])
  have hlong : isTooLong last = false := h.short last (by simp [hsegs])
  refine ⟨_, place_of_lead h.text h.usable hlast ?_ hfollow hend, ?_⟩
  · simp only [Path.isIdle, Bool.or_eq_false_iff, decide_eq_false_iff_not] at hidle
    exact not_or.2 ⟨hidle.2, hup⟩
  · simp [Place.location?, hlong, Path.spot_lead hlast hidle hup]

/-- What is a place for an entry ends in a name, has no name that is too long and leads over
folders. -/
theorem lead_of_place {pl : Place} {l : Location} (h : v.place p = .ok pl)
    (hl : pl.location? = .ok l) :
    (∃ last, p.last? = some last ∧ Path.isIdle last = false ∧ last ≠ "..") ∧
      p.text ≠ "" ∧ isUnusable p = false ∧ (∀ n ∈ p.segments, isTooLong n = false) ∧
      ∀ k, Disk.Visited (p.origin v.current) p.lead k → v.tree.isFolder k := by
  obtain ⟨last, hname⟩ := name_of_location? hl
  have hplaced := placed h hname
  obtain ⟨before, slashes, hsegs, hslashes, hfollow⟩ := hplaced.segments
  obtain ⟨hlast, rfl⟩ := Path.last?_eq hsegs hslashes hplaced.named.1
  obtain ⟨hfolder, htrail, -⟩ := Tree.follow_eq_ok hfollow
  refine ⟨⟨last, hlast, by simp [Path.isIdle, hplaced.named], hplaced.named.2.2⟩, hplaced.text,
    hplaced.usable, fun n hn => ?_, fun k hk => ?_⟩
  · have hlong : isTooLong last = false := by
      by_contra hlong
      rw [Bool.not_eq_false] at hlong
      simp [Place.location?, hname, hlong] at hl
    rw [hsegs] at hn
    rcases List.mem_append.1 hn with hn | hn
    · exact Tree.short_of_follow hfollow n hn
    · rcases List.mem_cons.1 hn with rfl | hn
      · exact hlong
      · rw [hslashes n hn]
        rfl
  · rcases hk with hk | rfl
    · exact htrail k hk
    · exact hfolder ▸ hplaced.folder

end View

namespace Disk

variable {v : View} {source target : Path} {a b : Location}

/-- A folder can be moved to a place outside it where there is an empty folder at most. -/
theorem movement?_of_free {pa pb : Place} (hpa : v.place source = .ok pa)
    (ha : pa.location? = .ok a) (hpb : v.place target = .ok pb) (hb : pb.location? = .ok b)
    (hf : v.tree.isFolder a) (hout : ¬ a <+: b)
    (hfree : ∀ r, v.tree.get? (b ++ r) ≠ none → r = []) (hpassable : v.tree.Passable b) :
    movement? v source target = .ok (some (a, b)) := by
  obtain ⟨last, hlast⟩ := View.name_of_location? ha
  obtain ⟨last', hlast'⟩ := View.name_of_location? hb
  have hnull {p : Path} (h : View.isUnusable p = false) : View.holdsNull p = false :=
    (Bool.or_eq_false_iff.1 h).1
  have hnull : (View.holdsNull source || View.holdsNull target) = false := by
    simp [hnull (View.placed hpa hlast).usable, hnull (View.placed hpb hlast').usable]
  have hne : a ≠ b := fun heq => hout (heq ▸ List.prefix_rfl)
  unfold movement?
  simp only [hnull, hpa, hpb, ha, hb, hlast', Tree.get?_of_isFolder hf, bind, Except.bind]
  rcases Tree.passable_iff.1 hpassable with hnone | hfolder
  · simp [hnone, hne, hout]
    rfl
  · simp [Tree.get?_of_isFolder hfolder, Tree.entriesOf_eq_nil hfree, hne, hout]
    rfl


section Rename

variable {d : Disk} (hsource : Vacant v source a) (hc : d.current = v.current)
  (hf : d.tree.isFolder a) (hout : ¬ a <+: target.spot d.current)
include hsource hc hf hout

/-- A folder is moved to where there is room, if its own path leads over folders that are there or
are made. -/
theorem rename_of_room (hroom : d.Room target)
    (hreach : ∀ s ∈ trail (source.origin d.current) source.segments,
      d.tree.isFolder s ∨ Visited (target.origin d.current) target.lead s) :
    ((rename source target).on d).1 = .ok () := by
  obtain ⟨last, hlast, hidle, hup⟩ := hroom.named
  obtain ⟨hok, hfolders⟩ := makeFoldersTo_ok hroom.toFits hroom.start
  have hgrows := grows_makeFoldersTo hroom.text hlast hidle d
  have hcurrent := (through_makeFoldersTo target d).current
  rw [on_rename]
  generalize (makeFoldersTo target).on d = made at hok hfolders hgrows hcurrent
  obtain ⟨result, d'⟩ := made
  obtain rfl : result = .ok () := hok
  obtain ⟨pa, hpa, ha⟩ := hsource.place
  obtain ⟨name, hname⟩ := View.name_of_location? ha
  obtain ⟨pb, hpb, hb⟩ := hroom.place hcurrent hfolders
  have hpa : d'.place source = .ok pa := by
    refine View.place_mono hpa hname (hcurrent.trans hc) fun s hs _ => ?_
    rw [← hc] at hs
    rcases hreach s hs with hs | hs
    · exact hgrows.extends.isFolder hs
    · exact hfolders s hs
  have hfree (r : Location) (hr : d'.tree.get? (target.spot d.current ++ r) ≠ none) : r = [] := by
    rcases hgrows (target.spot d.current ++ r) with hsame | ⟨hvisited, -, -⟩
    · exact hroom.free r (hsame ▸ hr)
    · simpa using hroom.apart _ hvisited (List.prefix_append _ r)
  have hpassable : d'.tree.Passable (target.spot d.current) := by
    intro content hfile
    rcases hgrows (target.spot d.current) with hsame | ⟨-, -, hmade⟩
    · exact hroom.clear _ (.inr rfl) content (hsame ▸ hfile)
    · cases hmade.symm.trans hfile
  simp only
  rw [movement?_of_free hpa ha hpb hb (hgrows.extends.isFolder hf) hout hfree hpassable]

/-- A folder is moved only where there is room. -/
theorem room_of_rename (h : ((rename source target).on d).1 = .ok ()) :
    d.Room target ∧ ∀ s ∈ trail (source.origin d.current) source.segments,
      d.tree.isFolder s ∨ Visited (target.origin d.current) target.lead s := by
  have hmade : ((makeFoldersTo target).on d).1 = .ok () := by
    rw [on_rename] at h
    generalize (makeFoldersTo target).on d = made at h ⊢
    obtain ⟨_ | _, d'⟩ := made
    · cases h
    · rfl
  have hcurrent := (through_makeFoldersTo target d).current
  have hspot : source.spot d.current = a := by rw [hc, hsource.spot]
  obtain ⟨hmovable, htrail, pb, hpb, hb⟩ :
      Tree.Movable ((makeFoldersTo target).on d).2.tree a (target.spot d.current) ∧
        (∀ s ∈ trail (source.origin d.current) source.segments,
          ((makeFoldersTo target).on d).2.tree.isFolder s ∨ s = a) ∧
        ∃ pb, ((makeFoldersTo target).on d).2.place target = .ok pb ∧
          pb.location? = .ok (target.spot d.current) := by
    rcases rename_cases source target d hspot.symm rfl rfl with
      ⟨e, heq⟩ | ⟨-, heq, -⟩ | ⟨-, hmoved⟩
    · cases h.symm.trans (congrArg Prod.fst heq)
    · exact absurd (heq ▸ List.prefix_rfl) hout
    · exact hmoved
  obtain ⟨⟨last, hlast, hidle, hup⟩, htext, husable, hshort, hfolders⟩ :=
    View.lead_of_place hpb hb
  have hgrows := grows_makeFoldersTo htext hlast hidle d
  have hstart := isFolder_origin_of_makeFoldersTo htext hlast hidle hmade
  generalize ((makeFoldersTo target).on d).2 = d' at *
  rw [hcurrent] at hfolders
  have hf' := hgrows.extends.isFolder hf
  have hpassable {k : Location} (hk : ∀ e, d'.tree.get? k = some e → e = .folder) :
      d.tree.Passable k := by
    intro content hfile
    cases hk _ (hgrows.extends k _ hfile)
  refine ⟨⟨⟨htext, husable, ⟨last, hlast, hidle, hup⟩, hshort, fun s hs => ?_⟩,
    hstart (hfolders _ (visited_self _ _)), fun r hr => ?_, ?_⟩, fun s hs => ?_⟩
  · refine hpassable fun e he => ?_
    rcases (visits_iff hlast hidle hup).1 hs with hs | rfl
    · exact Option.some.inj (he.symm.trans (Tree.get?_of_isFolder (hfolders s hs)))
    · exact (hmovable.free [] e (by simpa using he)).2.2 hf'
  · obtain ⟨e, he⟩ := Option.ne_none_iff_exists'.1 hr
    exact (hmovable.free r e (hgrows.extends _ e he)).1
  · rintro _ hs ⟨r, rfl⟩
    have hr := hmovable.free r _ (Tree.get?_of_isFolder (hfolders _ hs))
    simp [hr.1]
  · have hs' : d'.tree.isFolder s := by
      refine (htrail s hs).resolve_right ?_
      rintro rfl
      exact hsource.not_prefix s (hc ▸ hs) List.prefix_rfl
    rcases hgrows s with hsame | ⟨hvisited, -, -⟩
    · rw [Tree.isFolder, hsame, ← Tree.isFolder] at hs'
      exact .inl hs'
    · exact .inr hvisited

/-- A folder is moved exactly to where there is room, by a path that leads over folders that are
there or are made. -/
theorem rename_ok_iff : ((rename source target).on d).1 = .ok () ↔
    d.Room target ∧ ∀ s ∈ trail (source.origin d.current) source.segments,
      d.tree.isFolder s ∨ Visited (target.origin d.current) target.lead s :=
  ⟨room_of_rename hsource hc hf hout, fun h => rename_of_room hsource hc hf hout h.1 h.2⟩

end Rename

end Disk

/-! ### Paths that turn back -/

namespace Location

/-- Without double dots names lead down. -/
theorem prefix_of_visited {l k : Location} {names : List String} (h : ".." ∉ names)
    (hk : Disk.Visited l names k) : l <+: k ∧ k <+: walk l names := by
  induction names generalizing l k with
  | nil =>
    obtain rfl : k = l := by simpa [Disk.Visited, trail] using hk
    exact ⟨List.prefix_rfl, List.prefix_rfl⟩
  | cons name rest ih =>
    have hrest : ".." ∉ rest := fun hmem => h (by simp [hmem])
    have hstep : l <+: step l name := by
      unfold step
      split_ifs with hidle hup
      · exact List.prefix_rfl
      · exact absurd (hup ▸ List.mem_cons_self) h
      · exact List.prefix_append _ _
    rcases Disk.visited_cons.1 hk with rfl | hk
    · exact ⟨List.prefix_rfl, hstep.trans (ih hrest (Disk.visited_self (step k name) rest)).2⟩
    · obtain ⟨hdown, hend⟩ := ih hrest hk
      exact ⟨hstep.trans hdown, hend⟩

end Location

namespace View

variable {v : View} {p : Path}

/-- A path with double dots only as long as it leads over folders. -/
def Straight (v : View) (p : Path) : Prop :=
  ∃ xs names l, p.segments = xs ++ names ∧ v.tree.follow (p.origin v.current) xs = .ok l ∧
    v.tree.isFolder l ∧ ".." ∉ names

/-- What a straight path does not lead to is not there, but for files. -/
theorem Fits.absent (h : v.Fits p) (hs : v.Straight p) (hn : v.exists? p = false) :
    v.tree.get? (p.spot v.current) = none := by
  obtain ⟨xs, names, l, hsegs, hxs, hl, hnames⟩ := hs
  obtain ⟨hwalk, htrail, -⟩ := Tree.follow_eq_ok hxs
  have hspot : p.spot v.current = walk l names := by rw [Path.spot, hsegs, walk_append, hwalk]
  by_contra hthere
  -- then what is on the way is there too, and the path leads to it
  have hfolders (s : Location) (hs : s ∈ trail (p.origin v.current) p.segments) :
      v.tree.isFolder s := by
    rw [hsegs, trail_append, ← hwalk] at hs
    rcases List.mem_append.1 hs with hs | hs
    · exact htrail s hs
    · obtain ⟨r, hr⟩ := (prefix_of_visited hnames (.inl hs)).2
      rw [← hspot] at hr
      by_cases hend : r = []
      · rw [hend, List.append_nil] at hr
        rw [hr]
        exact (Tree.passable_iff.1 (h.clear _ (.inr rfl))).resolve_left hthere
      · exact Tree.isFolder_of_append (hr ▸ hthere) hend
  have hfollow := Tree.follow_of_trail h.short hfolders hthere
  have hlocate : v.locate p = .ok (p.spot v.current) := by
    rw [locate, if_neg h.text, if_neg (by simp [h.usable])]
    exact hfollow
  rw [exists?, hlocate] at hn
  cases hn

/-- There is room at the end of a straight path that does not lead anywhere. -/
theorem Fits.room (h : v.Fits p) (hs : v.Straight p) (hn : v.exists? p = false) : v.Room p := by
  have habsent := h.absent hs hn
  obtain ⟨last, hlast, hidle, hup⟩ := h.named
  obtain ⟨xs, names, l, hsegs, hxs, hl, hnames⟩ := hs
  obtain ⟨hwalk, htrail, -⟩ := Tree.follow_eq_ok hxs
  have hspot : p.spot v.current = walk l names := by rw [Path.spot, hsegs, walk_append, hwalk]
  refine ⟨h, ?_, fun r hr => ?_, fun s hs hbelow => ?_⟩
  · cases xs with
    | nil =>
      rw [hwalk] at hl
      exact hl
    | cons x xs => exact htrail _ (by simp [trail])
  · exact absurd (Tree.get?_append_of_none habsent r) hr
  · have hvisits := (Disk.visits_iff hlast hidle hup).2 (.inl hs)
    rw [Disk.Visits, hsegs, Disk.visited_append, ← hwalk] at hvisits
    rcases hvisits with hs | hs
    · have hfolder := Tree.get?_of_isFolder (htrail s hs)
      rw [Tree.get?_under habsent hbelow] at hfolder
      cases hfolder
    · have hend := (prefix_of_visited hnames hs).2
      rw [← hspot] at hend
      exact hend.eq_of_length_le hbelow.length_le

/-- Room is a matter of what is on the way and at the end. -/
theorem Room.congr {v' : View} (h : v.Room p) (hc : v'.current = v.current)
    (hvisits : ∀ k, Disk.Visits v.current p k → v'.tree.get? k = v.tree.get? k)
    (hbelow : ∀ r, v'.tree.get? (p.spot v.current ++ r) = v.tree.get? (p.spot v.current ++ r)) :
    v'.Room p where
  text := h.text
  usable := h.usable
  named := h.named
  short := h.short
  clear s hs := by
    rw [hc] at hs
    intro content
    rw [hvisits s hs]
    exact h.clear s hs content
  start := by
    rw [hc, Tree.isFolder, hvisits _ (Disk.visited_self _ _), ← Tree.isFolder]
    exact h.start
  free r hr := by
    rw [hc, hbelow r] at hr
    exact h.free r hr
  apart s hs := by
    rw [hc] at hs ⊢
    exact h.apart s hs

end View
end Rollout
