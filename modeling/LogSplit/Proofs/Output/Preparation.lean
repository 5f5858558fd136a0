import LogSplit.Proofs.Output.Directory

/-!
# What preparing an output directory leaves alone

Making directories takes nothing away (`Grows`), and clearing the directory of old segment files
takes away regular files only, and never the one that is to be kept (`Cleared`).  So every path to
that file leads to it afterwards as well, by the route it had (`keeps_prepareDirectory`).

That the kept file is recognised rests on two things.  An entry of the directory is removed under
the very path by which it is compared with the file to be kept, and a regular file has no second
location.
-/

set_option autoImplicit false

namespace LogSplit

namespace FileTree

variable {t t' t'' : FileTree} {cwd base keep : Location} {p dir : Path} {route : List Location}
  {bytes : Bytes}

/-! ## Making directories -/

/-- Whatever stood in a tree still stands there. -/
structure Grows (t t' : FileTree) : Prop where
  /-- No entry is gone or different. -/
  lookup : ∀ l node, t.lookup l = some node → t'.lookup l = some node
  /-- No entry has come that no path leads to. -/
  wellFormed : WellFormed t → WellFormed t'

theorem Grows.refl (t : FileTree) : Grows t t :=
  ⟨fun _ _ h => h, id⟩

theorem Grows.trans (h : Grows t t') (h' : Grows t' t'') : Grows t t'' :=
  ⟨fun l node hl => h'.lookup l node (h.lookup l node hl),
    fun ht => h'.wellFormed (h.wellFormed ht)⟩

theorem grows_makeDir (h : t.makeDir cwd p = .ok t') : Grows t t' where
  lookup l node hl := by
    obtain ⟨loc, hown, hvacant, rfl⟩ := makeDir_eq_ok_iff.1 h
    rw [lookup_insert t _ l (ownLocation_ne_nil hown), if_neg, hl]
    rintro rfl
    rw [hvacant] at hl
    cases hl
  wellFormed ht := ht.makeDir h

theorem grows_makeDirs (cwd : Location) (paths : List Path) (t : FileTree) :
    Grows t (makeDirs cwd paths t).2 :=
  makeDirs_induction (fun _ hgrows hmake => hgrows.trans (grows_makeDir hmake)) (.refl t)

/-- A route is kept when nothing is taken away. -/
theorem Grows.keeps {links : Nat} {here : Location} {names : List Bytes} {place : Place}
    (h : Grows t t') (hroute : Leads t links here names place route) : Keeps route t t' where
  directory l hl := h.lookup l _ hl
  route l hl := by
    obtain ⟨node, hnode, -⟩ := hroute.lookup_of_mem l hl
    rw [hnode, h.lookup l node hnode]

/-- A path still leads to its entry when nothing is taken away. -/
theorem Grows.entryAt (h : Grows t t') {loc : Location} {node : Node}
    (hentry : t.entryAt cwd p = .ok (loc, node)) : t'.entryAt cwd p = .ok (loc, node) := by
  obtain ⟨husable, route, hlead⟩ := entryAt_eq_ok_iff.1 hentry
  exact entryAt_eq_ok_iff.2 ⟨husable, route, hlead.of_keeps (h.keeps hlead)⟩

/-! ## Removing files -/

/-- Some regular files are gone from a tree, and not the one to be kept. -/
def Cleared (keep : Location) (t t' : FileTree) : Prop :=
  ∀ l, t'.lookup l = t.lookup l ∨
    l ≠ keep ∧ t'.lookup l = none ∧ ∃ content, t.lookup l = some (.file content)

theorem Cleared.refl (keep : Location) (t : FileTree) : Cleared keep t t :=
  fun _ => Or.inl rfl

theorem Cleared.keepsWays (h : Cleared keep t t') : KeepsWays t t' := by
  intro l node hl hnode
  rcases h l with heq | ⟨-, -, content, hfile⟩
  · rw [heq, hl]
  · rw [hfile] at hl
    cases hl
    cases hnode

/-- The route to the file that is kept is kept, since there is no other file on it. -/
theorem Cleared.keeps {links : Nat} {here : Location} {names : List Bytes} (h : Cleared keep t t')
    (hroute : Leads t links here names (.entry keep (.file bytes)) route) : Keeps route t t' where
  directory l hl := h.keepsWays l _ hl rfl
  route l hl := by
    rcases h l with heq | ⟨hne, -, content, hfile⟩
    · exact heq
    · exact absurd ((hroute.mem_iff_of_file hfile).1 hl) hne

theorem Cleared.remove (h : Cleared keep t t') (hremove : t'.remove cwd p = .ok t'')
    (hown : ∀ l, t'.ownLocation cwd p = .ok l →
      l ≠ keep ∧ ∃ content, t.lookup l = some (.file content)) : Cleared keep t t'' := by
  obtain ⟨-, loc, node, hloc, -, -, rfl⟩ := remove_eq_ok_iff.1 hremove
  intro l
  rw [lookup_erase t' l (ownLocation_ne_nil hloc)]
  split
  · rename_i hl
    rw [hl]
    exact Or.inr ⟨(hown loc hloc).1, rfl, (hown loc hloc).2⟩
  · exact h l

/-- An entry of the directory is removed under the very path by which it is compared with the file
to be kept. -/
theorem Cleared.clearEntry (h : Cleared keep t t') (hdir : HasDirectory t cwd dir base)
    (hkeep : t.lookup keep = some (.file bytes)) {entry : Bytes × Bool} {count : Nat}
    (hentry : entry.2 = true →
      Path.IsPiece entry.1 ∧ ∃ content, t.lookup (entry.1 :: base) = some (.file content))
    (hclear : t'.clearEntry cwd dir (some keep) entry = .ok (count, t'')) : Cleared keep t t'' := by
  obtain ⟨name, isFile⟩ := entry
  rw [FileTree.clearEntry] at hclear
  split at hclear
  · rename_i hcond
    simp only [Bool.and_eq_true, Bool.not_eq_true'] at hcond
    obtain ⟨hname, content, hfile⟩ := hentry hcond.1.1
    have hdir' := hdir.of_keepsWays h.keepsWays
    cases hremove : t'.remove cwd (dir.join name) with
    | error e =>
      rw [hremove] at hclear
      cases hclear
    | ok removed =>
      rw [hremove] at hclear
      cases hclear
      refine h.remove hremove fun l hown => ?_
      obtain ⟨husable, hlast, rfl⟩ := (hdir'.ownLocation_join_iff hname).1 hown
      refine ⟨?_, content, hfile⟩
      rintro rfl
      have hstands : t'.lookup (name :: base) = some (.file bytes) := by
        rcases h (name :: base) with heq | ⟨hne, -, -⟩
        · rw [heq, hkeep]
        · exact absurd rfl hne
      have hkept : t'.isKept cwd (some (name :: base)) (dir.join name) = true := by
        rw [isKept, canonical, (hdir'.entryAt_join_iff hname hlast.ne_dot hlast.ne_up
          (by simp [hstands])).2 ⟨husable, hlast, rfl, hstands⟩]
        exact decide_eq_true rfl
      rw [hkept] at hcond
      cases hcond.2
  · cases hclear
    exact h

/-- **Clearing a directory** removes regular files in it, and not the one to be kept. -/
theorem Cleared.clear (hdir : HasDirectory t cwd dir base)
    (hkeep : t.lookup keep = some (.file bytes)) {entries : List (Bytes × Bool)}
    (hentries : ∀ name, (name, true) ∈ entries →
      Path.IsPiece name ∧ ∃ content, t.lookup (name :: base) = some (.file content)) :
    ∀ {removed : Nat} {t' : FileTree}, Cleared keep t t' →
      Cleared keep t (clear cwd dir (some keep) removed entries t').2 := by
  induction entries with
  | nil => exact fun h => h
  | cons entry rest ih =>
    intro removed t' h
    rw [FileTree.clear]
    rcases hentry : t'.clearEntry cwd dir (some keep) entry with e | ⟨count, t''⟩
    · exact h
    · have hfirst : Cleared keep t t'' := by
        refine h.clearEntry hdir hkeep (fun htrue => hentries entry.1 ?_) hentry
        rw [← htrue]
        exact List.mem_cons_self
      exact ih (fun name hname => hentries name (List.mem_cons_of_mem _ hname)) hfirst

end FileTree

open FileTree

/-! ## On a host -/

variable {host : Host} {bytes : Bytes}

/-- **Preparing the output directory** keeps the route to the input. -/
theorem keeps_prepareDirectory {input : Path} {keep : Location} {route : List Location}
    (hwell : WellFormed host.files) (husable : usable input = .ok ())
    (hlead : Leads host.files maxLinks (origin host.cwd input) (steps input)
      (.entry keep (.file bytes)) route) (dir : Path) (clean : Bool) :
    ∃ outcome files journal, (prepareDirectory dir clean (some input) : OnHost _) host
      = (outcome, { host with files, journal }) ∧ Keeps route host.files files := by
  obtain ⟨journal, hprepared⟩ := prepareDirectory_onHost dir clean (some input) host
  refine ⟨_, _, journal, hprepared, ?_⟩
  have hgrows := grows_makeDirs host.cwd dir.ancestors host.files
  rw [FileTree.prepareDirectory]
  generalize FileTree.makeDirs host.cwd dir.ancestors host.files = made at hgrows ⊢
  obtain ⟨outcome, files⟩ := made
  have hkeeps := hgrows.keeps hlead
  rcases outcome with e | ⟨⟩
  · exact hkeeps
  cases clean with
  | false => exact hkeeps
  | true =>
    have hlead' := hlead.of_keeps hkeeps
    have hcanonical : files.canonical host.cwd input = .ok keep := by
      rw [canonical, entryAt_eq_ok_iff.2 ⟨husable, _, hlead'⟩]
      rfl
    simp only [if_true, Option.bind_some, hcanonical]
    cases hlist : files.list host.cwd dir with
    | error e => exact hkeeps
    | ok entries =>
      obtain ⟨base, hdir, -, hfiles⟩ := list_eq_ok hlist
      have hpieces : ∀ name, (name, true) ∈ entries →
          Path.IsPiece name ∧ ∃ content, files.lookup (name :: base) = some (.file content) := by
        intro name hname
        obtain ⟨content, hfile⟩ := (hfiles name).1 hname
        exact ⟨hgrows.wellFormed hwell name base _ hfile, content, hfile⟩
      have hcleared : Cleared keep files
          (FileTree.clear host.cwd dir (some keep) 0 entries files).2 :=
        Cleared.clear hdir hlead'.lookup_file hpieces (.refl keep files)
      exact hkeeps.trans (hcleared.keeps hlead')

end LogSplit
