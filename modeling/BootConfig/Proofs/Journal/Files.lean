import BootConfig.Journal.Setup
import BootConfig.Proofs.Data.Table
import BootConfig.Proofs.Failing

/-!
# What is written to files

Opening a log file makes it and the directories before it, as far as they are missing, and changes
no content. A line goes to the end of its file, and to no other.

* `FileTree.Written`: lines written to the ends of files, and nothing else.
* `Journal.written_openLog`: a log file that could be opened.
-/

namespace BootConfig

namespace FileTree

variable {t t' t'' : FileTree} {names : List FileName} {n : FileNode}

/-! ## Bindings -/

theorem node?_bind_of_ne {other : List FileName} (h : other ≠ names) :
    (t.bind names n).node? other = t.node? other := by
  have hlookup : (t.bind names n).entries.lookup other = t.entries.lookup other := by
    rw [bind, List.lookup_append, lookup_filter_of_ne h, lookup_cons_of_ne h, List.lookup_nil,
      Option.or_none]
  unfold node?
  rw [hlookup]
  rfl

theorem node?_bind_self (h : names.isPrefixOf t.home = false) :
    (t.bind names n).node? names = some n := by
  have hnone : (t.entries.filter fun e => e.1 != names).lookup names = none := by
    rw [List.lookup_eq_none_iff]
    intro e he
    have hne : e.1 ≠ names := bne_iff_ne.mp (List.mem_filter.mp he).2
    exact bne_iff_ne.mpr (Ne.symm hne)
  have hlookup : (t.bind names n).entries.lookup names = some n := by
    rw [bind, List.lookup_append, hnone, Option.none_or, List.lookup_cons, beq_self_eq_true]
  have hhome : names.isPrefixOf (t.bind names n).home = false := h
  rw [node?, hhome, if_neg Bool.false_ne_true, hlookup]

/-- What is no directory that is always there. -/
theorem not_home_of_node? (h : t.node? names ≠ some .directory) :
    names.isPrefixOf t.home = false := by
  refine eq_false_of_ne_true fun hprefix => h ?_
  rw [node?, hprefix, if_pos rfl]

def contentOf : Option FileNode → Bytes
  | some (.file content) => content
  | _ => []

theorem content_eq (t : FileTree) (names : List FileName) :
    t.content names = contentOf (t.node? names) := by
  unfold content readNames
  cases t.node? names with
  | none => rfl
  | some n => cases n <;> rfl

/-! ## Lines -/

/-- The bytes of the lines for one file. -/
def bytesFor (names : List FileName) (lines : List (List FileName × Text)) : Bytes :=
  (lines.filter fun l => l.1 == names).flatMap fun l => Journal.lineBytes l.2

theorem bytesFor_append (names : List FileName) (lines lines' : List (List FileName × Text)) :
    bytesFor names (lines ++ lines') = bytesFor names lines ++ bytesFor names lines' := by
  rw [bytesFor, List.filter_append, List.flatMap_append]
  rfl

/-- Files to whose ends lines have been written, and nothing else. -/
structure Written (t : FileTree) (lines : List (List FileName × Text)) (t' : FileTree) :
    Prop where
  home : t'.home = t.home
  content : ∀ names, t'.content names = t.content names ++ bytesFor names lines

namespace Written

theorem refl (t : FileTree) : Written t [] t := ⟨rfl, fun _ => (List.append_nil _).symm⟩

theorem trans {lines lines' : List (List FileName × Text)} (h : Written t lines t')
    (h' : Written t' lines' t'') : Written t (lines ++ lines') t'' := by
  refine ⟨h'.home.trans h.home, fun names => ?_⟩
  rw [h'.content, h.content, bytesFor_append, List.append_assoc]

/-- One line at the end of a file. -/
theorem append (h : names.isPrefixOf t.home = false) (line : Text) :
    Written t [(names, line)] (t.append names (Journal.lineBytes line)) := by
  refine ⟨rfl, fun other => ?_⟩
  by_cases hother : other = names
  · subst hother
    rw [FileTree.append, content_eq _ other, node?_bind_self h]
    simp [contentOf, bytesFor]
  · rw [FileTree.append, content_eq _ other, node?_bind_of_ne hother, ← content_eq]
    simp [bytesFor, Ne.symm hother]

/-- A directory or an empty file where nothing has been. -/
theorem bind_fresh (h : t.node? names = none) (hempty : contentOf (some n) = []) :
    Written t [] (t.bind names n) := by
  refine ⟨rfl, fun other => ?_⟩
  have hhome : names.isPrefixOf t.home = false := not_home_of_node? (by rw [h]; simp)
  rw [content_eq, content_eq t, show bytesFor other [] = [] from rfl, List.append_nil]
  by_cases hother : other = names
  · subst hother
    rw [node?_bind_self hhome, hempty, h]
    rfl
  · rw [node?_bind_of_ne hother]

end Written

/-! ## Directories -/

variable {p : Pathname}

theorem written_makeDirectory (h : t.makeDirectory p = .ok t') : Written t [] t' := by
  obtain ⟨names, _, h⟩ := bind_eq_ok.mp h
  split at h
  · cases h
  · rename_i hnone
    cases h
    exact .bind_fresh (Option.not_isSome_iff_eq_none.mp hnone) rfl

theorem written_ensureDirectory (t : FileTree) (p : Pathname) :
    Written t [] (t.ensureDirectory p).1 := by
  unfold ensureDirectory
  split
  · rename_i hmade
    exact written_makeDirectory hmade
  · exact .refl t

/-- Whether or not all directories can be made, no content changes. -/
theorem written_makeDirectoriesFrom (t : FileTree) (p : Pathname) (depth : Nat) :
    Written t [] (t.makeDirectoriesFrom p depth).1 := by
  induction depth generalizing p with
  | zero => exact written_ensureDirectory t p
  | succ depth ih =>
    have habove := ih p.parent
    rw [makeDirectoriesFrom]
    split
    · split
      · rename_i above hmade
        rw [hmade] at habove
        exact habove.trans (written_ensureDirectory above p)
      · rename_i above f hmade
        rw [hmade] at habove
        exact habove
    · exact written_ensureDirectory t p

/-! ## Log files -/

/-- Where a path leads depends on the working directory only. -/
theorem absoluteNames_congr (h : t'.home = t.home) (p : Pathname) :
    t'.absoluteNames p = t.absoluteNames p := by
  unfold absoluteNames start
  rw [h]

/-- No step up is left in the names that a path stands for. -/
theorem absoluteNames_noStepUp (t : FileTree) (p : Pathname) : .up ∉ t.absoluteNames p := by
  have hfold : ∀ parts acc : List FileName, .up ∉ acc → .up ∉ parts.foldl (step .up) acc := by
    intro parts
    induction parts with
    | nil => exact fun _ hacc => hacc
    | cons part rest ih =>
      refine fun acc hacc => ih _ ?_
      unfold step
      split
      · exact fun hmem => hacc (List.dropLast_subset _ hmem)
      · rename_i hpart
        intro hmem
        rcases List.mem_append.mp hmem with hmem | hmem
        · exact hacc hmem
        · exact hpart (beq_iff_eq.mpr (List.mem_singleton.mp hmem).symm)
  exact hfold (t.start p ++ p.names) [] List.not_mem_nil

/-- A name that is no step up is added to those before it, if it can be followed. -/
theorem follow_eq {acc mid : List FileName} {name : FileName} (h : t.follow acc name = .ok mid)
    (hname : name ≠ .up) : mid = acc ++ [name] := by
  unfold follow at h
  split at h
  · cases h
  · cases h
  · rw [if_neg (by simpa using hname)] at h
    split at h
    · cases h
    · cases h
      rfl
  · cases h
  · cases h

/-- Names without steps up lead where they say, if they lead anywhere. -/
theorem follow_noStepUp {located : List FileName} (h : names.foldlM t.follow [] = .ok located)
    (hnames : .up ∉ names) : located = names := by
  have hfold : ∀ rest acc located : List FileName, .up ∉ rest →
      rest.foldlM t.follow acc = .ok located → located = acc ++ rest := by
    intro rest
    induction rest with
    | nil =>
      rintro acc located - h
      cases h
      rw [List.append_nil]
    | cons name rest ih =>
      intro acc located hrest h
      rw [List.mem_cons, not_or] at hrest
      rw [List.foldlM_cons] at h
      obtain ⟨mid, hmid, h⟩ := bind_eq_ok.mp h
      rw [ih mid located hrest.2 h, follow_eq hmid (Ne.symm hrest.1), List.append_assoc]
      rfl
  exact hfold names [] located hnames h

/-- A file that could be opened is there, and no content has changed. -/
theorem written_openNames (h : t.openNames names = .ok t') (hnames : .up ∉ names) :
    Written t [] t' ∧ names.isPrefixOf t.home = false := by
  obtain ⟨located, hlocated, hopened⟩ := bind_eq_ok.mp h
  obtain rfl := follow_noStepUp hlocated hnames
  split at hopened
  · rename_i hnone
    cases hopened
    exact ⟨.bind_fresh hnone rfl, not_home_of_node? (by rw [hnone]; simp)⟩
  · rename_i hfile
    cases hopened
    exact ⟨.refl t, not_home_of_node? (by rw [hfile]; simp)⟩
  · cases hopened
  · cases hopened
  · cases hopened

theorem written_openFile (h : t.openFile p = .ok (t', names)) :
    Written t [] t' ∧ names = t.absoluteNames p ∧ names.isPrefixOf t.home = false := by
  simp only [openFile] at h
  split at h
  · cases h
  · split at h
    · rename_i opened hopened
      cases h
      obtain ⟨hwritten, hhome⟩ := written_openNames hopened (absoluteNames_noStepUp t p)
      exact ⟨hwritten, rfl, hhome⟩
    · cases h

end FileTree

/-- A log file that could be opened, after its directory has been made. -/
theorem Journal.written_openLog {t t' : FileTree} {path : Text} {names : List FileName}
    (h : openLog t path = (t', .ok names)) :
    FileTree.Written t [] t' ∧ names = t.absoluteNames (Pathname.ofText path) ∧
      names.isPrefixOf t.home = false := by
  let p := Pathname.ofText path
  have hmade : FileTree.Written t [] (t.makeDirectories p.parent).1 :=
    FileTree.written_makeDirectoriesFrom t p.parent _
  unfold openLog at h
  dsimp only at h
  split at h
  · cases h
  · split at h
    · cases h
    · rename_i made hdirectories
      rw [hdirectories] at hmade
      split at h
      · cases h
      · split at h
        · rename_i hopen
          cases h
          obtain ⟨hopened, hnames, hhome⟩ := FileTree.written_openFile hopen
          exact ⟨hmade.trans hopened, hnames.trans (FileTree.absoluteNames_congr hmade.home _),
            hmade.home ▸ hhome⟩
        · cases h

end BootConfig
