import BootConfig.Journal.Logbook
import BootConfig.Proofs.Journal.Files

/-!
# Notices are delivered once

Setting up the journal replaces the handlers of the setup before. So a notice that is grave enough
is written once to the console and once to the log file of the last setup, whatever setups and
notices there have been, and what is less grave is not written at all.

* `Channels.reaches_ofName`: notices come to the root unless two dots stand behind its name.
* `Logbook.expectedTexts`, `Logbook.expectedLines`: what steps write, by the last setup alone.
* `Logbook.delivered_once`: this is what they write.
-/

namespace BootConfig

open FileTree (Written bytesFor)

/-! ## Channels -/

/-- A channel without two dots right behind the name of the root. -/
def Channel.isAttached (channel : String) : Bool :=
  !(Channel.root ++ "..").toList.isPrefixOf channel.toList

theorem Channel.ofName_cases (name : String) : Channel.ofName name = Channel.root ∨
    ∃ rest, (Channel.ofName name).toList = Channel.root.toList ++ '.' :: rest := by
  unfold Channel.ofName
  split
  · rename_i h
    rcases (Bool.or_eq_true _ _).mp h with hroot | hbelow
    · exact .inl (eq_of_beq hroot)
    · obtain ⟨rest, hrest⟩ := List.isPrefixOf_iff_prefix.mp hbelow
      refine .inr ⟨rest, ?_⟩
      rw [← hrest, String.toList_append, List.append_assoc]
      rfl
  · refine .inr ⟨name.toList, ?_⟩
    rw [String.toList_append, String.toList_append, List.append_assoc]
    rfl

namespace Channels

/-- The search for a channel above finds the root if it has to pass over no dot behind its name. The
names are read from their ends, so the induction is on the part behind that dot; wherever the search
is resumed, the part begins with the same character as before. -/
theorem climbs_root (cs : Channels) : ∀ rest : List Char, rest.getLast? ≠ some '.' →
    cs.climbs (rest ++ '.' :: Channel.root.toList.reverse) = true
  | [], _ => by
    obtain ⟨c, cs', hroot⟩ : ∃ c cs', Channel.root.toList.reverse = c :: cs' := ⟨_, _, rfl⟩
    have habove : String.ofList (c :: cs').reverse = Channel.root := by
      rw [← hroot, List.reverse_reverse, String.ofList_toList]
    rw [List.nil_append, hroot, climbs]
    simp only [habove, beq_self_eq_true, Bool.true_or]
  | [c], h => by
    have hc : c ≠ '.' := by simpa using h
    rw [List.singleton_append, climbs]
    · exact climbs_root cs [] (by simp)
    · rintro c' rest rfl
      exact (hc rfl).elim
  | c :: c' :: rest, h => by
    have hbehind : (c' :: rest).getLast? ≠ some '.' := by simpa [List.getLast?_cons_cons] using h
    by_cases hc : c = '.'
    · subst hc
      have hrest : rest.getLast? ≠ some '.' := by
        cases rest with
        | nil => simp
        | cons d ds => simpa [List.getLast?_cons_cons] using hbehind
      rw [List.cons_append, List.cons_append, climbs]
      have hfrom := climbs_root cs (c' :: rest) hbehind
      rw [List.cons_append] at hfrom
      simp only [hfrom, climbs_root cs rest hrest, ite_self, Bool.or_true]
    · rw [List.cons_append, climbs]
      · exact climbs_root cs (c' :: rest) hbehind
      · rintro d ds rfl
        exact (hc rfl).elim

/-- Notices come to the root from a channel without two dots behind its name, whatever channels
there are. -/
theorem reaches_ofName (cs : Channels) {name : String}
    (h : Channel.isAttached (Channel.ofName name) = true) :
    cs.reaches (Channel.ofName name) = true := by
  rcases Channel.ofName_cases name with hroot | ⟨rest, hrest⟩
  · simp [reaches, hroot]
  · have hfirst : rest.reverse.getLast? ≠ some '.' := by
      rw [List.getLast?_reverse]
      intro hhead
      obtain ⟨more, rfl⟩ := List.head?_eq_some_iff.mp hhead
      -- the dot in front of the rest and the one it begins with stand behind the root
      have hprefix :
          (Channel.root ++ "..").toList.isPrefixOf (Channel.ofName name).toList = true := by
        rw [List.isPrefixOf_iff_prefix, hrest, String.toList_append]
        exact ⟨more, by rw [List.append_assoc]; rfl⟩
      rw [Channel.isAttached, hprefix] at h
      cases h
    have hclimbs := cs.climbs_root rest.reverse hfirst
    rw [reaches, hrest, List.reverse_append, List.reverse_cons, List.append_assoc,
      List.singleton_append, hclimbs, Bool.or_true]

/-- All answers that are kept are those of a journal. -/
def Agree (cs : Channels) (j : Journal) : Prop := ∀ a ∈ cs.answers, a.2 = j.enabled a.1.2

theorem Agree.know {cs : Channels} {j : Journal} (h : cs.Agree j) (channel : String) :
    (cs.know channel).Agree j := by
  unfold Channels.know
  split
  · exact h
  · exact h

/-- A channel from which notices come to the root answers for the journal. -/
theorem Agree.ask {cs : Channels} {j : Journal} {channel : String} (h : cs.Agree j)
    (hreaches : cs.reaches channel = true) (s : Severity) :
    (cs.ask j channel s).1 = j.enabled s ∧ (cs.ask j channel s).2.Agree j := by
  unfold Channels.ask
  split
  · rename_i answer hanswer
    obtain ⟨before, later, hsplit, _⟩ := List.lookup_eq_some_iff.mp hanswer
    have hmem : ((channel, s), answer) ∈ cs.answers := by
      rw [hsplit]
      exact List.mem_append_right _ List.mem_cons_self
    exact ⟨h _ hmem, h⟩
  · have hjournal : cs.journal j channel = j := by rw [Channels.journal, if_pos hreaches]
    rw [hjournal]
    refine ⟨rfl, fun a ha => ?_⟩
    rcases List.mem_cons.mp ha with rfl | ha
    · rfl
    · exact h a ha

end Channels

/-! ## Setups -/

namespace Journal

/-- The severities that have a name of their own. -/
def severities : List Severity :=
  [Severity.debug, Severity.info, Severity.warning, Severity.error, Severity.critical]

namespace Settings

/-- The severity whose name is the level of some settings, in any case. -/
def severity? (s : Settings) : Option Severity :=
  severities.find? fun l => Text.ofString l.name == (Text.ofString s.level).toUpper

def severity (s : Settings) : Severity := s.severity?.getD 0

/-- The names that lead to the log file of some settings, if they ask for one. -/
def logFile (s : Settings) (t : FileTree) : Option (List FileName) :=
  match s.file with
  | some path => if path.isEmpty then none else some (t.absoluteNames (Pathname.ofText path))
  | none => none

/-- The journal that some settings ask for. -/
def journal (s : Settings) (t : FileTree) : Journal :=
  ⟨s.severity, ⟨.console s.console, layoutOf s.format, s.severity⟩ ::
    (s.logFile t).toList.map fun names => ⟨.file names s.policy, layoutOf s.format, s.severity⟩⟩

/-- What is written to streams of a notice after a setup. -/
def texts (s : Settings) (m : Moment) (n : Notice) : List (Stream × Text) :=
  if s.severity ≤ n.severity then [(s.console, (layoutOf s.format).consoleLine m n)] else []

/-- What is written to files of a notice after a setup. -/
def lines (s : Settings) (t : FileTree) (m : Moment) (n : Notice) : List (List FileName × Text) :=
  if s.severity ≤ n.severity then
    (s.logFile t).toList.map fun names => (names, (layoutOf s.format).fileLine m n)
  else []

/-- Settings with a level that has a name of its own, and without rotation. -/
structure IsRegular (s : Settings) : Prop where
  level : s.severity?.isSome = true
  unlimited : s.policy.limit ≤ 0

theorem logFile_congr {t t' : FileTree} (h : t'.home = t.home) (s : Settings) :
    s.logFile t' = s.logFile t := by
  unfold logFile
  split
  · rw [FileTree.absoluteNames_congr h]
  · rfl

variable {s : Settings}

theorem level_eq (h : s.severity?.isSome = true) :
    Journal.level s.level = .ok s.severity ∧ s.severity ∈ severities := by
  obtain ⟨l, hl⟩ := Option.isSome_iff_exists.mp h
  have hmem : l ∈ severities := List.mem_of_find?_eq_some hl
  have hname : (Text.ofString s.level).toUpper.lossy = l.name := by
    have hupper := List.find?_some hl
    rw [← eq_of_beq hupper, Text.lossy_ofString]
  have hlookup : ∀ l ∈ severities, levels.lookup (Severity.name l) = some l := by decide
  have hseverity : s.severity = l := by rw [severity, hl, Option.getD_some]
  refine ⟨?_, hseverity ▸ hmem⟩
  unfold Journal.level
  simp only [hname, hlookup l hmem, hseverity]

theorem severity_pos (h : s.severity?.isSome = true) : 0 < s.severity := by
  have hall : ∀ l ∈ severities, 0 < l := by decide
  exact hall _ (level_eq h).2

end Settings

variable {s : Settings} {t files : FileTree}

theorem effective_eq (j : Journal) (h : 0 < j.threshold) : j.effective = j.threshold := by
  unfold effective
  rw [if_neg (Int.ne_of_gt h)]

theorem enabled_journal (h : s.IsRegular) (severity : Severity) :
    (s.journal t).enabled severity = decide (s.severity ≤ severity) := by
  have hpos := Settings.severity_pos h.level
  have heffective : (s.journal t).effective = s.severity := effective_eq _ hpos
  rw [enabled, heffective]
  by_cases hle : s.severity ≤ severity
  · have hsome : 0 < severity := Int.lt_of_lt_of_le hpos hle
    simp [hle, hsome]
  · simp [hle]

/-- A handler without rotation writes each line to the end of its file. -/
theorem writeFile_eq {p : Rotation.Policy} (h : p.limit ≤ 0) (names : List FileName) (line : Text) :
    writeFile t names p line = t.append names (lineBytes line) := by
  have hnot : Rotation.isDue p (t.content names).length line.length = false := by
    unfold Rotation.isDue
    rw [decide_eq_false (by omega), Bool.false_and]
  unfold writeFile
  rw [hnot]
  rfl

/-- What the journal of a setup makes of a notice: one line on the console and one in the log file,
if the notice is grave enough. -/
theorem deliver_journal (h : s.IsRegular) (hhome : t.home = files.home)
    (hfile : ∀ names ∈ s.logFile files, names.isPrefixOf files.home = false) (m : Moment)
    (n : Notice) :
    ((s.journal files).deliver m t n).texts = s.texts m n ∧
      Written t (s.lines files m n) ((s.journal files).deliver m t n).files := by
  unfold deliver
  rw [enabled_journal h]
  by_cases hle : s.severity ≤ n.severity
  · have hnot : ¬ n.severity < s.severity := Int.not_lt.mpr hle
    rw [if_pos (decide_eq_true hle), Settings.texts, if_pos hle, Settings.lines, if_pos hle]
    unfold publish Settings.journal
    cases hlog : s.logFile files with
    | none =>
      simp only [Option.toList_none, List.map_nil, List.isEmpty_cons, Bool.false_eq_true, if_false,
        List.foldl_cons, List.foldl_nil, handle, if_neg hnot, List.nil_append]
      exact ⟨trivial, .refl t⟩
    | some names =>
      have hwritten := Written.append (t := t) (hhome ▸ hfile names hlog)
        ((layoutOf s.format).fileLine m n)
      simp only [Option.toList_some, List.map_cons, List.map_nil, List.isEmpty_cons,
        Bool.false_eq_true, if_false, List.foldl_cons, List.foldl_nil, handle, if_neg hnot,
        List.nil_append, writeFile_eq h.unlimited]
      exact ⟨trivial, hwritten⟩
  · rw [if_neg (by simpa using hle), Settings.texts, if_neg hle, Settings.lines, if_neg hle]
    exact ⟨rfl, .refl t⟩

/-- Before the first setup there are no handlers, and grave notices are shown as they are. -/
theorem deliver_initial (m : Moment) (n : Notice) : initial.deliver m t n =
    ⟨t, if n.severity < Severity.warning then [] else [(.diagnostics, n.message ++ "\n")]⟩ := by
  have heffective : initial.effective = Severity.warning := rfl
  unfold deliver enabled
  rw [heffective]
  by_cases hgrave : n.severity < Severity.warning
  · have hnot : ¬ Severity.warning ≤ n.severity := Int.not_le.mpr hgrave
    simp [hgrave, hnot]
  · have hle : Severity.warning ≤ n.severity := Int.not_lt.mp hgrave
    have hpos : 0 < n.severity := Int.lt_of_lt_of_le (by decide) hle
    simp [hgrave, hle, hpos, publish, initial]

/-- Notices are delivered one after the other. The induction is on them, and what has been delivered
before is carried along. -/
theorem foldl_deliver (h : s.IsRegular)
    (hfile : ∀ names ∈ s.logFile files, names.isPrefixOf files.home = false) (m : Moment)
    (ns : List Notice) : ∀ d : Delivery, d.files.home = files.home →
      let d' := ns.foldl (fun d n =>
        let next := (s.journal files).deliver m d.files n
        ⟨next.files, d.texts ++ next.texts⟩) d
      d'.texts = d.texts ++ ns.flatMap (s.texts m) ∧
        Written d.files (ns.flatMap (s.lines files m)) d'.files := by
  induction ns with
  | nil =>
    intro d _
    exact ⟨(List.append_nil _).symm, .refl _⟩
  | cons n rest ih =>
    intro d hhome
    obtain ⟨htexts, hwritten⟩ := deliver_journal h hhome hfile m n
    obtain ⟨htexts', hwritten'⟩ := ih
      ⟨((s.journal files).deliver m d.files n).files,
        d.texts ++ ((s.journal files).deliver m d.files n).texts⟩ (hwritten.home.trans hhome)
    refine ⟨?_, hwritten.trans hwritten'⟩
    rw [List.foldl_cons, htexts', htexts, List.flatMap_cons, List.append_assoc]

/-- What a setup comes to if its level has a meaning: without a log file and with one that can be
opened the journal that the settings ask for, and else one that writes to the console alone. -/
theorem setUp_cases (j : Journal) (m : Moment) (t : FileTree) (h : s.severity?.isSome = true) :
    (s.logFile t = none ∧
      j.setUp m t s = ⟨s.journal t, (s.journal t).deliverAll m t (setupNotices s), none⟩) ∨
    ∃ path, s.file = some path ∧ path.isEmpty = false ∧
      ((∃ left f, openLog t path = (left, .error f) ∧
        j.setUp m t s = ⟨⟨s.severity, [⟨.console s.console, layoutOf s.format, s.severity⟩]⟩,
          ⟨left, []⟩, some f⟩) ∨
      ∃ opened, openLog t path = (opened, .ok (t.absoluteNames (Pathname.ofText path))) ∧
        j.setUp m t s =
          ⟨s.journal t, (s.journal t).deliverAll m opened (setupNotices s), none⟩) := by
  have hconsole : s.logFile t = none → s.journal t =
      ⟨s.severity, [⟨.console s.console, layoutOf s.format, s.severity⟩]⟩ := by
    intro hnone
    rw [Settings.journal, hnone]
    rfl
  unfold setUp
  rw [(Settings.level_eq h).1]
  dsimp only
  cases hpath : s.file with
  | none =>
    have hnone : s.logFile t = none := by rw [Settings.logFile, hpath]
    exact .inl ⟨hnone, by rw [hconsole hnone]⟩
  | some path =>
    simp only
    by_cases hempty : path.isEmpty = true
    · have hnone : s.logFile t = none := by simp only [Settings.logFile, hpath, if_pos hempty]
      exact .inl ⟨hnone, by rw [if_pos hempty, hconsole hnone]⟩
    · refine .inr ⟨path, rfl, eq_false_of_ne_true hempty, ?_⟩
      rw [if_neg hempty]
      rcases hopen : openLog t path with ⟨left, f | names⟩
      · exact .inl ⟨left, f, rfl, rfl⟩
      · obtain ⟨-, rfl, -⟩ := written_openLog hopen
        have hlog : s.logFile t = some (t.absoluteNames (Pathname.ofText path)) := by
          simp only [Settings.logFile, hpath, if_neg hempty]
        exact .inr ⟨left, rfl, by rw [Settings.journal, hlog]; rfl⟩

/-- A setup without a fault leaves the journal that its settings ask for, whatever the journal has
been, and delivers its own notices to that. -/
theorem setUp_eq {j : Journal} {m : Moment} (h : s.IsRegular)
    (hfault : (j.setUp m t s).fault = none) :
    (j.setUp m t s).journal = s.journal t ∧
      (∀ names ∈ s.logFile t, names.isPrefixOf t.home = false) ∧
      (j.setUp m t s).delivery.texts = (setupNotices s).flatMap (s.texts m) ∧
      Written t ((setupNotices s).flatMap (s.lines t m)) (j.setUp m t s).delivery.files := by
  -- without a log file, and with one after it has been opened, the notices are delivered alike
  have hdeliver : ∀ opened : FileTree, Written t [] opened →
      (∀ names ∈ s.logFile t, names.isPrefixOf t.home = false) →
      ((s.journal t).deliverAll m opened (setupNotices s)).texts =
          (setupNotices s).flatMap (s.texts m) ∧
        Written t ((setupNotices s).flatMap (s.lines t m))
          ((s.journal t).deliverAll m opened (setupNotices s)).files := by
    intro opened hopened hfile
    obtain ⟨htexts, hwritten⟩ := foldl_deliver h hfile m (setupNotices s) ⟨opened, []⟩ hopened.home
    exact ⟨htexts, hopened.trans hwritten⟩
  rcases setUp_cases j m t h.level with
    ⟨hnone, hsetUp⟩ | ⟨path, hpath, hempty, ⟨left, f, -, hsetUp⟩ | ⟨opened, hopen, hsetUp⟩⟩
  · rw [hsetUp]
    exact ⟨rfl, by simp [hnone], hdeliver t (.refl t) (by simp [hnone])⟩
  · rw [hsetUp] at hfault
    cases hfault
  · rw [hsetUp]
    obtain ⟨hopened, -, hhome⟩ := written_openLog hopen
    have hfile : ∀ names ∈ s.logFile t, names.isPrefixOf t.home = false := by
      intro names hnames
      rw [Settings.logFile, hpath] at hnames
      simp only [hempty, Bool.false_eq_true, if_false, Option.mem_some_iff] at hnames
      exact hnames ▸ hhome
    exact ⟨rfl, hfile, hdeliver opened hopened hfile⟩

end Journal

/-! ## Logbooks -/

namespace Logbook

open Journal (Settings)

namespace Step

/-- The settings of the last setup after a step. -/
def settings (before : Option Settings) : Step → Option Settings
  | .setUp s => some s
  | .send .. => before

/-- What is sent in a step. -/
def notices : Step → List Notice
  | .setUp s => Journal.setupNotices s
  | .send name severity module function message =>
    [⟨severity, ⟨Channel.ofName name, module, function⟩, message⟩]

/-- Steps with levels that have a name of their own, without rotation, and with notices on channels
without two dots right behind the name of the root. -/
def IsRegular : Step → Prop
  | .setUp s => s.IsRegular
  | .send name .. => Channel.isAttached (Channel.ofName name) = true

end Step

/-- What is written to streams of a notice, by the settings of the last setup. Before the first one
the message of a grave notice is shown as it is. -/
def textsOf (latest : Option Settings) (m : Moment) (n : Notice) : List (Stream × Text) :=
  match latest with
  | some s => s.texts m n
  | none => if n.severity < Severity.warning then [] else [(.diagnostics, n.message ++ "\n")]

/-- What is written to files of a notice, by the settings of the last setup. -/
def linesOf (t : FileTree) (latest : Option Settings) (m : Moment) (n : Notice) :
    List (List FileName × Text) :=
  match latest with
  | some s => s.lines t m n
  | none => []

/-- What steps write to streams, if each notice is written by the last setup. -/
def expectedTexts : Option Settings → List (Moment × Step) → List (Stream × Text)
  | _, [] => []
  | latest, (m, e) :: rest =>
    e.notices.flatMap (textsOf (e.settings latest) m) ++ expectedTexts (e.settings latest) rest

/-- What steps write to files, if each notice is written by the last setup. -/
def expectedLines (t : FileTree) :
    Option Settings → List (Moment × Step) → List (List FileName × Text)
  | _, [] => []
  | latest, (m, e) :: rest =>
    e.notices.flatMap (linesOf t (e.settings latest) m) ++
      expectedLines t (e.settings latest) rest

/-- The settings of the last setup among some steps. -/
def lastSettings (steps : List (Moment × Step)) : Option Settings :=
  steps.foldl (fun latest e => e.2.settings latest) none

/-- Whether all setups among some steps succeed. -/
def succeeds : Logbook → List (Moment × Step) → Bool
  | _, [] => true
  | b, (m, e) :: rest =>
    let o := b.step m e
    (match o.result with
      | .refused _ => false
      | .ready | .sent _ => true) && o.logbook.succeeds rest

/-! ### One step -/

/-- A logbook whose journal is that of the last setup. The names of log files are those that they
have had in the files at the begin. -/
structure Follows (t : FileTree) (latest : Option Settings) (b : Logbook) : Prop where
  home : b.files.home = t.home
  journal : b.journal = (latest.map fun s => s.journal t).getD Journal.initial
  answers : b.channels.Agree b.journal
  regular : ∀ s ∈ latest, s.IsRegular
  file : ∀ s ∈ latest, ∀ names ∈ s.logFile t, names.isPrefixOf t.home = false

variable {t : FileTree} {latest : Option Settings} {b : Logbook}

theorem follows_begin (t : FileTree) : Follows t none (begin t) where
  home := rfl
  journal := rfl
  answers := fun _ h => nomatch h
  regular := fun _ h => nomatch h
  file := fun _ h => nomatch h

theorem journal_setUp (b : Logbook) (m : Moment) (s : Settings) :
    (b.setUp m s).logbook.journal = (b.journal.setUp m b.files s).journal := by
  rw [setUp]

theorem files_setUp (b : Logbook) (m : Moment) (s : Settings) :
    (b.setUp m s).logbook.files = (b.journal.setUp m b.files s).delivery.files := by
  rw [setUp]

theorem texts_setUp (b : Logbook) (m : Moment) (s : Settings) :
    (b.setUp m s).texts = (b.journal.setUp m b.files s).delivery.texts := by
  rw [setUp]

theorem Follows.setUp (h : Follows t latest b) (m : Moment) {s : Settings} (hregular : s.IsRegular)
    (hready : ∀ f, (b.setUp m s).result ≠ .refused f) :
    Follows t (some s) (b.setUp m s).logbook ∧
      (b.setUp m s).texts = (Journal.setupNotices s).flatMap (s.texts m) ∧
      Written b.files ((Journal.setupNotices s).flatMap (s.lines t m))
        (b.setUp m s).logbook.files := by
  have hfault : (b.journal.setUp m b.files s).fault = none := by
    cases hfault : (b.journal.setUp m b.files s).fault with
    | none => rfl
    | some f =>
      refine absurd ?_ (hready f)
      simp only [Logbook.setUp, hfault]
  obtain ⟨hjournal, hfile, htexts, hwritten⟩ := Journal.setUp_eq hregular hfault
  have hlog : s.logFile b.files = s.logFile t := Settings.logFile_congr h.home s
  have hsame : s.journal b.files = s.journal t := by rw [Settings.journal, hlog, Settings.journal]
  have hlines : s.lines b.files m = s.lines t m := by
    funext n
    rw [Settings.lines, hlog, Settings.lines]
  rw [hsame] at hjournal
  rw [hlog, h.home] at hfile
  rw [hlines] at hwritten
  rw [← journal_setUp] at hjournal
  rw [← texts_setUp] at htexts
  rw [← files_setUp] at hwritten
  refine ⟨⟨hwritten.home.trans h.home, hjournal, ?_, ?_, ?_⟩, htexts, hwritten⟩
  · -- the answers have been discarded
    intro a ha
    simp only [Logbook.setUp, (Settings.level_eq hregular.level).1] at ha
    cases ha
  · rintro s' hs'
    cases hs'
    exact hregular
  · rintro s' hs'
    cases hs'
    exact hfile

theorem Follows.send (h : Follows t latest b) (m : Moment) (n : Notice)
    (hreaches : ∀ cs : Channels, cs.reaches n.origin.channel = true) :
    Follows t latest (b.send m n).logbook ∧ (b.send m n).texts = textsOf latest m n ∧
      Written b.files (linesOf t latest m n) (b.send m n).logbook.files := by
  obtain ⟨henabled, hagree⟩ :=
    (h.answers.know n.origin.channel).ask (hreaches _) n.severity
  have hdelivery : b.send m n =
      ⟨⟨b.journal, ((b.channels.know n.origin.channel).ask b.journal n.origin.channel n.severity).2,
        (b.journal.deliver m b.files n).files⟩, (b.journal.deliver m b.files n).texts,
        .sent (b.journal.enabled n.severity)⟩ := by
    simp only [Logbook.send, henabled, Channels.journal, if_pos (hreaches _), Journal.deliver]
  have hwritten : (b.journal.deliver m b.files n).texts = textsOf latest m n ∧
      Written b.files (linesOf t latest m n) (b.journal.deliver m b.files n).files := by
    cases hlatest : latest with
    | some s =>
      rw [h.journal, hlatest]
      exact Journal.deliver_journal (h.regular s hlatest) h.home (h.file s hlatest) m n
    | none =>
      have hinitial : b.journal = Journal.initial := by rw [h.journal, hlatest]; rfl
      rw [hinitial, Journal.deliver_initial]
      exact ⟨rfl, .refl _⟩
  rw [hdelivery]
  exact ⟨⟨hwritten.2.home.trans h.home, h.journal, hagree, h.regular, h.file⟩, hwritten.1,
    hwritten.2⟩

/-- One step is written by the last setup, which is its own if it is a setup. -/
theorem Follows.step (h : Follows t latest b) (m : Moment) {e : Step} (hregular : e.IsRegular)
    (hready : ∀ f, (b.step m e).result ≠ .refused f) :
    Follows t (e.settings latest) (b.step m e).logbook ∧
      (b.step m e).texts = e.notices.flatMap (textsOf (e.settings latest) m) ∧
      Written b.files (e.notices.flatMap (linesOf t (e.settings latest) m))
        (b.step m e).logbook.files := by
  cases e with
  | setUp s => exact h.setUp m hregular hready
  | send name severity module function message =>
    rw [Step.notices, List.flatMap_singleton, List.flatMap_singleton]
    exact h.send m _ fun cs => cs.reaches_ofName hregular

/-! ### Several steps -/

theorem not_refused_of_succeeds {m : Moment} {e : Step} {rest : List (Moment × Step)}
    (h : b.succeeds ((m, e) :: rest) = true) : (∀ f, (b.step m e).result ≠ .refused f) ∧
      (b.step m e).logbook.succeeds rest = true := by
  rw [succeeds, Bool.and_eq_true] at h
  refine ⟨fun f hf => ?_, h.2⟩
  rw [hf] at h
  exact absurd h.1 Bool.false_ne_true

/-- Steps are written by the last setup before each of them. The induction is on the steps, and the
last setup so far is the state that is carried along. -/
theorem Follows.after {steps : List (Moment × Step)} (h : Follows t latest b)
    (hregular : ∀ e ∈ steps, e.2.IsRegular) (hsucceeds : b.succeeds steps = true) :
    Follows t (steps.foldl (fun latest e => e.2.settings latest) latest) (b.after steps).1 ∧
      (b.after steps).2 = expectedTexts latest steps ∧
      Written b.files (expectedLines t latest steps) (b.after steps).1.files := by
  induction steps generalizing latest b with
  | nil => exact ⟨h, rfl, .refl _⟩
  | cons e rest ih =>
    obtain ⟨m, e⟩ := e
    obtain ⟨he, hrest⟩ := List.forall_mem_cons.mp hregular
    obtain ⟨hready, hsucceeds⟩ := not_refused_of_succeeds hsucceeds
    obtain ⟨hfollows, htexts, hwritten⟩ := h.step m he hready
    obtain ⟨hfollows', htexts', hwritten'⟩ := ih hfollows hrest hsucceeds
    refine ⟨hfollows', ?_, hwritten.trans hwritten'⟩
    rw [Logbook.after, htexts, htexts']
    rfl

theorem bytesFor_logFile (names : List FileName) (log : Option (List FileName)) (line : Text) :
    bytesFor names (log.toList.map fun names => (names, line)) =
      if log = some names then Journal.lineBytes line else [] := by
  cases log with
  | none => rfl
  | some log => by_cases hnames : log = names <;> simp [bytesFor, hnames]

theorem succeeds_append {before rest : List (Moment × Step)}
    (h : b.succeeds (before ++ rest) = true) :
    b.succeeds before = true ∧ (b.after before).1.succeeds rest = true := by
  induction before generalizing b with
  | nil => exact ⟨rfl, h⟩
  | cons e before ih =>
    obtain ⟨m, e⟩ := e
    rw [List.cons_append, succeeds, Bool.and_eq_true] at h
    obtain ⟨hbefore, hrest⟩ := ih h.2
    refine ⟨?_, hrest⟩
    rw [succeeds, h.1, hbefore]
    rfl

end Logbook

namespace Layout

/-- The part of a line in a file that shows the severity: its plain name. -/
def severityPart (l : Layout) (n : Notice) : String :=
  match l with
  | .text => "] " ++ n.severity.name ++ " - "
  | .object => objectEntry "levelname" (objectText n.severity.name)

/-- A notice whose message is a string is written to a file as a string, with the plain name of the
severity in it. -/
theorem fileLine_ofString (l : Layout) (m : Moment) (severity : Severity) (origin : Origin)
    (message : String) :
    let n : Notice := ⟨severity, origin, message⟩
    ∃ line : String, l.fileLine m n = line ∧
      ∃ front back, line = front ++ l.severityPart n ++ back := by
  intro n
  cases l with
  | text =>
    refine ⟨fileStart m n ++ message ++ "\n", ?_, "[" ++ m.date ++ " " ++ m.clock,
      n.origin.channel ++ " - " ++ n.origin.module ++ ":" ++ n.origin.function ++ ":" ++
        lineNumber ++ " - " ++ message ++ "\n", ?_⟩
    · rw [Text.ofString_append, Text.ofString_append]
      rfl
    · unfold fileStart severityPart
      simp only [String.append_assoc]
  | object =>
    have hthird : ∀ a b c d e f g, objectLine [a, b, c, d, e, f, g] ++ "\n" =
        ("\x7b" ++ a ++ ", " ++ b ++ ", ") ++ c ++
          (", " ++ d ++ ", " ++ e ++ ", " ++ f ++ ", " ++ g ++ "\x7d" ++ "\n") := by
      intro a b c d e f g
      have hjoined : objectLine [a, b, c, d, e, f, g] = "\x7b" ++ (a ++ ", " ++ b ++ ", " ++ c ++
        ", " ++ d ++ ", " ++ e ++ ", " ++ f ++ ", " ++ g) ++ "\x7d" := rfl
      rw [hjoined]
      simp only [String.append_assoc]
    refine ⟨_, ?_, _, _, hthird (objectEntry "asctime" (objectText (momentText m)))
      (objectEntry "name" (objectText n.origin.channel))
      (objectEntry "levelname" (objectText n.severity.name))
      (objectEntry "module" (objectText n.origin.module))
      (objectEntry "funcName" (objectText n.origin.function)) (objectEntry "lineno" lineNumber)
      (messageEntry n)⟩
    rw [Text.ofString_append]
    rfl

end Layout

namespace Logbook

open Journal (Settings)

/-- **Notices are delivered once.** Let the journal be set up any number of times, with levels that
have names, without rotation and without a fault, and let notices of any severities be sent in
between, on channels without two dots right behind the name of the root. What is written to streams
and to the ends of files is then what the last setup before each notice says, and nothing else. In
particular a notice that is as grave as the last setup asks for is one line on its console and one
line, with the plain name of the severity, in its log file, if it has one, and changes no other
file; and any other notice is written nowhere.

A line whose text cannot be written to a file is due there all the same, and has no bytes. Only what
a setup tells of the name of its log file can be such a line. -/
theorem delivered_once (files : FileTree) (steps : List (Moment × Step))
    (hregular : ∀ e ∈ steps, e.2.IsRegular) (hsucceeds : (begin files).succeeds steps = true) :
    ((begin files).after steps).2 = expectedTexts none steps ∧
      (∀ names, ((begin files).after steps).1.files.content names =
        files.content names ++ bytesFor names (expectedLines files none steps)) ∧
      ∀ before m name severity module function message rest s,
        steps = before ++ (m, .send name severity module function message) :: rest →
        lastSettings before = some s →
        let b := ((begin files).after before).1
        let o := b.step m (.send name severity module function message)
        let n : Notice := ⟨severity, ⟨Channel.ofName name, module, function⟩, message⟩
        ∃ line : String, (Journal.layoutOf s.format).fileLine m n = line ∧
        (∃ front back, line = front ++ (Journal.layoutOf s.format).severityPart n ++ back) ∧
        if s.severity ≤ severity then
          o.texts = [(s.console, (Journal.layoutOf s.format).consoleLine m n)] ∧
          ∀ names, o.logbook.files.content names =
            b.files.content names ++ if s.logFile files = some names then Utf8.ofString line else []
        else o.texts = [] ∧ ∀ names, o.logbook.files.content names = b.files.content names := by
  obtain ⟨-, htexts, hwritten⟩ := (follows_begin files).after hregular hsucceeds
  refine ⟨htexts, hwritten.content, ?_⟩
  rintro before m name severity module function message rest s rfl hlast b o n
  obtain ⟨hbefore, hrest⟩ := List.forall_mem_append.mp hregular
  have hname := (List.forall_mem_cons.mp hrest).1
  obtain ⟨hfollows, -, -⟩ := (follows_begin files).after hbefore (succeeds_append hsucceeds).1
  obtain ⟨-, hsent, hfiles⟩ := hfollows.send m n fun cs => cs.reaches_ofName hname
  have hlatest : before.foldl (fun latest e => e.2.settings latest) none = some s := hlast
  rw [hlatest] at hsent hfiles
  obtain ⟨line, hline, hseverity⟩ := Layout.fileLine_ofString (Journal.layoutOf s.format) m severity
    ⟨Channel.ofName name, module, function⟩ message
  refine ⟨line, hline, hseverity, ?_⟩
  by_cases hle : s.severity ≤ severity
  · rw [if_pos hle]
    refine ⟨hsent.trans (if_pos hle), fun names => ?_⟩
    have hlines : linesOf files (some s) m n =
        (s.logFile files).toList.map fun names => (names, Text.ofString line) := by
      rw [← hline]
      exact if_pos hle
    rw [show o.logbook.files = (b.send m n).logbook.files from rfl, hfiles.content, hlines,
      bytesFor_logFile, Journal.lineBytes_ofString]
  · rw [if_neg hle]
    have hlines : linesOf files (some s) m n = [] := if_neg hle
    refine ⟨hsent.trans (if_neg hle), fun names => ?_⟩
    rw [hlines] at hfiles
    exact (hfiles.content names).trans (List.append_nil _)

/-- The second setup has another console and no log file: the notice before it is on the first
console and in the log file, the one after it on the second console alone. -/
theorem delivered_once_twoSetups :
    let m : Moment := ⟨"2024-05-06", "07:08:09", "010"⟩
    let steps : List (Moment × Step) := [
      (m, .setUp ⟨"Info", "text", some "log/a.txt", ⟨0, 5⟩, .opened 1⟩),
      (m, .send "core" 40 "core" "start" "begun"),
      (m, .setUp ⟨"warning", "json", none, ⟨-1, 5⟩, .opened 2⟩),
      (m, .send "core" 25 "core" "wait" "waiting"),
      (m, .send "core" 30 "core" "stop" "ended")]
    (∀ e ∈ steps, e.2.IsRegular) ∧ (begin (.empty ["home"])).succeeds steps = true ∧
      ((begin (.empty ["home"])).after steps).2 = ([
        (.opened 1, "level=\x1b[31mERROR\x1b[0m ts=2024-05-06T07:08:09 " ++
          "caller=blockstore_ingester.core msg=\x22begun\x22\n"),
        (.opened 2, "\x7b\x22asctime\x22: \x222024-05-06 07:08:09,010\x22, " ++
          "\x22name\x22: \x22blockstore_ingester.core\x22, " ++
          "\x22levelname\x22: \x22WARNING\x22, \x22message\x22: \x22ended\x22\x7d\n")] :
          List (Stream × Text)) ∧
      ((begin (.empty ["home"])).after steps).1.files.content ["home", "log", "a.txt"] =
        Utf8.ofString
          "[2024-05-06 07:08:09] ERROR - blockstore_ingester.core - core:start:0 - begun\n" := by
  intro m steps
  have hregular : ∀ e ∈ steps, e.2.IsRegular := by
    intro e he
    simp only [steps, List.mem_cons, List.not_mem_nil, or_false] at he
    rcases he with rfl | rfl | rfl | rfl | rfl
    · exact ⟨by decide +kernel, by decide⟩
    · show Channel.isAttached _ = true
      decide +kernel
    · exact ⟨by decide +kernel, by decide⟩
    · show Channel.isAttached _ = true
      decide +kernel
    · show Channel.isAttached _ = true
      decide +kernel
  have hsucceeds : (begin (.empty ["home"])).succeeds steps = true := by decide +kernel
  obtain ⟨htexts, hcontent, -⟩ := delivered_once (.empty ["home"]) steps hregular hsucceeds
  refine ⟨hregular, hsucceeds, ?_, ?_⟩
  · refine htexts.trans ?_
    decide +kernel
  · refine (hcontent _).trans ?_
    decide +kernel

/-- From a channel with two dots behind the root a notice does not come to the console, though it is
grave enough: its message is shown as if there had been no setup. -/
theorem not_delivered_behindDots :
    let m : Moment := ⟨"2024-05-06", "07:08:09", "010"⟩
    let s : Settings := ⟨"INFO", "text", none, ⟨0, 5⟩, .opened 1⟩
    let steps : List (Moment × Step) := [(m, .setUp s)]
    let last : Step := .send ".x" 40 "caller" "emit" "lost"
    s.IsRegular ∧ (begin (.empty ["home"])).succeeds (steps ++ [(m, last)]) = true ∧
      lastSettings steps = some s ∧ s.severity ≤ 40 ∧
      (((begin (.empty ["home"])).after steps).1.step m last).texts =
        ([(.diagnostics, "lost\n")] : List (Stream × Text)) := by
  refine ⟨⟨by decide +kernel, by decide⟩, by decide +kernel, rfl, by decide +kernel, ?_⟩
  decide +kernel

end Logbook

end BootConfig
