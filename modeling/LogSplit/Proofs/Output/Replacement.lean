import LogSplit.Proofs.File.Confined
import LogSplit.Proofs.Output.SegmentFiles

/-!
# When a path survives the files of segments

Putting a file in place touches up to three locations: the one its bytes are written to, the one
it is prepared at and the one it is moved to.  What stands elsewhere stays, so a path with nothing
touched on its route still leads where it led.  And the other way round: what has been touched is
gone from every path that leads to a file with bytes other than those that were written.

`leads_writeSegments_iff` puts the two together, for all files of a run one after the other.  The
locations have to be read off the tree as it is when their turn comes, since a file that is put in
place of a link can change where the next one goes.
-/

set_option autoImplicit false

namespace LogSplit

namespace FileTree

/-- Putting a file at a path touches a location. -/
inductive Touches (t : FileTree) (cwd : Location) (path : Path) (loc : Location) : Prop where
  /-- The bytes are written there. -/
  | written (h : t.landing cwd path.temporary = .ok loc)
  /-- The file is prepared there, or the link to where it is. -/
  | prepared (h : t.ownLocation cwd path.temporary = .ok loc)
  /-- The file is moved there, once the bytes are written. -/
  | placed {landing : Location} (hlanding : t.landing cwd path.temporary = .ok landing)
    (h : t.ownLocation cwd path = .ok loc)

variable {t t' written moved : FileTree} {cwd : Location} {path p : Path} {route : List Location}
  {content bytes : Bytes}

/-! ## What is not touched -/

theorem keeps_removed (h : ∀ l, t.ownLocation cwd p = .ok l → l ∉ route) :
    Keeps route t (t.removed cwd p) := by
  rw [removed]
  cases hremove : t.remove cwd p with
  | error e => exact .refl route t
  | ok files =>
    obtain ⟨-, loc, node, hown, hnode, hdir, rfl⟩ := remove_eq_ok_iff.1 hremove
    exact keeps_erase (ownLocation_ne_nil hown) (h loc hown) (lookup_ne_directory hnode hdir)

theorem landing_of_write (h : t.write cwd p content = .ok written) :
    ∃ loc, t.landing cwd p = .ok loc ∧ written = t.insert loc (.file content) := by
  rw [write_eq] at h
  cases hlanding : t.landing cwd p with
  | error e =>
    rw [hlanding] at h
    cases h
  | ok loc =>
    rw [hlanding] at h
    cases h
    exact ⟨loc, rfl, rfl⟩

/-- **What is not touched stays.** -/
theorem keeps_replaceFile (h : ∀ l ∈ route, ¬ Touches t cwd path l) :
    Keeps route t (t.replaceFile cwd path content).2 := by
  cases hwrite : t.write cwd path.temporary content with
  | error e =>
    rw [replaceFile_of_write_error hwrite]
    dsimp only
    exact keeps_removed fun l hown hl => h l hl (.prepared hown)
  | ok written =>
    obtain ⟨landing, hlanding, rfl⟩ := landing_of_write hwrite
    have hne := landing_ne_nil hlanding
    have hback : KeepsWays (t.insert landing (.file content)) t := keepsWays_of_insert hne content
    have hwritten : Keeps route t (t.insert landing (.file content)) :=
      keeps_insert hne _ (fun hl => h landing hl (.written hlanding)) fun hdir =>
        (hasNoWay_of_landing hlanding).ne hdir rfl rfl
    cases hmove : (t.insert landing (.file content)).move cwd path.temporary path with
    | error e =>
      rw [replaceFile_of_move_error hwrite hmove]
      dsimp only
      exact hwritten.trans <| keeps_removed fun l hown hl =>
        h l hl (.prepared (ownLocation_of_keepsWays hown hback))
    | ok moved =>
      rw [replaceFile_of_move_ok hwrite hmove]
      obtain ⟨-, -, source, target, node, hsource, htarget, hnode, hdir, htdir, rfl⟩ :=
        move_eq_ok_iff.1 hmove
      have herased : Keeps route (t.insert landing (.file content))
          ((t.insert landing (.file content)).erase source) :=
        keeps_erase (ownLocation_ne_nil hsource)
          (fun hl => h source hl (.prepared (ownLocation_of_keepsWays hsource hback)))
          (lookup_ne_directory hnode hdir)
      refine hwritten.trans (herased.trans (keeps_insert (ownLocation_ne_nil htarget) node
        (fun hl => h target hl (.placed hlanding (ownLocation_of_keepsWays htarget hback))) ?_))
      rw [lookup_erase _ _ (ownLocation_ne_nil hsource)]
      split
      · simp
      · exact htdir

/-! ## What is touched -/

theorem confined_removed (hslash : p.endsInSlash = false) :
    Confined bytes (fun l => t.ownLocation cwd p = .ok l) t (t.removed cwd p) := by
  rw [removed]
  cases hremove : t.remove cwd p with
  | error e =>
    refine (Confined.refl bytes t).mono fun l node hnode hdir hown => ?_
    cases hremove.symm.trans (remove_eq_ok_iff.2 ⟨hslash, l, node, hown, hnode, hdir, rfl⟩)
  | ok files =>
    obtain ⟨-, loc, node, hown, -, -, rfl⟩ := remove_eq_ok_iff.1 hremove
    refine (confined_erase (ownLocation_ne_nil hown)).mono fun l _ _ _ hl => ?_
    exact Except.ok.inj (hl.symm.trans hown)

/-- Where a file is prepared there is a file or a link once its bytes are written. -/
theorem lookup_prepared (content : Bytes) {landing own : Location}
    (hlanding : t.landing cwd p = .ok landing) (hown : t.ownLocation cwd p = .ok own) :
    (own = landing ∧ (t.insert landing (.file content)).lookup own = some (.file content)) ∨
      ∃ target links place route, own ≠ landing ∧
        (t.insert landing (.file content)).lookup own = some (.link target) ∧
        Leads t links (origin own.tail ⟨target⟩) (steps ⟨target⟩) place route ∧
        place.Receives landing := by
  have hne := landing_ne_nil hlanding
  have hwhere := landing_of_ownLocation hlanding hown
  rcases hnode : t.lookup own with _ | (_ | _ | target) <;> rw [hnode] at hwhere
  · subst hwhere
    exact Or.inl ⟨rfl, by rw [lookup_insert t _ _ hne, if_pos rfl]⟩
  · subst hwhere
    exact Or.inl ⟨rfl, by rw [lookup_insert t _ _ hne, if_pos rfl]⟩
  · exact hwhere.elim
  · obtain ⟨links, place, route, hleads, hreceives⟩ := hwhere
    have hother : own ≠ landing := (hasNoWay_of_landing hlanding).ne hnode rfl
    exact Or.inr ⟨target, links, place, route, hother,
      by rw [lookup_insert t _ _ hne, if_neg hother, hnode], hleads, hreceives⟩

/-- A link through which other bytes were written does not lead to the given ones. -/
theorem isDead_of_receives {changed : Location → Prop} {dir landing : Location} {target : Bytes}
    {links : Nat} {place : Place} (hconfined : Confined bytes changed t t')
    (hchanged : changed landing)
    (hleads : Leads t links (origin dir ⟨target⟩) (steps ⟨target⟩) place route)
    (hreceives : place.Receives landing) : IsDead bytes t' dir target := by
  intro links' names loc route' hlead
  obtain ⟨hlead, hno⟩ := hconfined.leads hlead
  rcases hleads.append_inv hlead with ⟨dir', _, _, rfl, _, _⟩ | ⟨rfl, hplace, rfl⟩
  · rcases hreceives with ⟨content, hplace⟩ | ⟨_, _, hplace, -⟩ <;> cases hplace
  · subst hplace
    rcases hreceives with ⟨content, hplace⟩ | ⟨_, _, hplace, -⟩ <;> cases hplace
    exact hno landing ((hleads.mem_iff_of_file hleads.lookup_file).2 rfl) hchanged

/-- The file can be moved unless a directory stands at its path. -/
theorem exists_move (content : Bytes) {landing own target : Location}
    (hbeside : path.temporary.Beside path) (hlanding : t.landing cwd path.temporary = .ok landing)
    (hown : t.ownLocation cwd path.temporary = .ok own)
    (htarget : t.ownLocation cwd path = .ok target) (hdir : t.lookup target ≠ some .directory) :
    ∃ moved, (t.insert landing (.file content)).move cwd path.temporary path = .ok moved := by
  have hne := landing_ne_nil hlanding
  have hways := keepsWays_insert hne (hasNoWay_of_landing hlanding) (.file content)
  have hprepared : ∃ node, (t.insert landing (.file content)).lookup own = some node ∧
      node ≠ .directory := by
    rcases lookup_prepared content hlanding hown with
      ⟨-, hnode⟩ | ⟨_, _, _, _, -, hnode, -, -⟩
    · exact ⟨_, hnode, by simp⟩
    · exact ⟨_, hnode, by simp⟩
  obtain ⟨node, hnode, hnodir⟩ := hprepared
  have htdir : (t.insert landing (.file content)).lookup target ≠ some .directory := by
    rw [lookup_insert t _ _ hne]
    split
    · simp
    · exact hdir
  exact ⟨_, move_eq_ok_iff.2 ⟨hbeside.endsInSlash_left, hbeside.endsInSlash_right, own, target,
    node, ownLocation_of_keepsWays hown hways, ownLocation_of_keepsWays htarget hways, hnode,
    hnodir, htdir, rfl⟩⟩

/-- What is moved does not make up for what it is moved over. -/
theorem isHarmless_moved {landing source target : Location} {node : Node}
    (hcontent : content ≠ bytes) (hbeside : path.temporary.Beside path)
    (hlanding : t.landing cwd path.temporary = .ok landing)
    (hsource : t.ownLocation cwd path.temporary = .ok source)
    (htarget : t.ownLocation cwd path = .ok target)
    (hnode : (t.insert landing (.file content)).lookup source = some node)
    {changed : Location → Prop} (hconfined : Confined bytes changed t t')
    (hchanged : changed landing) : IsHarmless bytes t' target (some node) := by
  rcases lookup_prepared content hlanding hsource with
    ⟨-, hfile⟩ | ⟨link, _, _, _, -, hlink, hleads, hreceives⟩
  · rw [hnode] at hfile
    cases hfile
    exact hcontent
  · rw [hnode] at hlink
    cases hlink
    rw [tail_ownLocation hbeside hsource htarget] at hleads
    exact isDead_of_receives hconfined hchanged hleads hreceives

/-- **What is touched is gone** from every path that leads to other bytes than those written. -/
theorem confined_replaceFile (hcontent : content ≠ bytes) (hbeside : path.temporary.Beside path) :
    Confined bytes (Touches t cwd path) t (t.replaceFile cwd path content).2 := by
  cases hwrite : t.write cwd path.temporary content with
  | error e =>
    rw [replaceFile_of_write_error hwrite]
    dsimp only
    have hlanding : ∀ l, t.landing cwd path.temporary ≠ .ok l := by
      intro l hl
      rw [write_eq, hl] at hwrite
      cases hwrite
    refine (confined_removed hbeside.endsInSlash_left).mono fun l _ _ _ htouches => ?_
    cases htouches with
    | written h => exact absurd h (hlanding _)
    | prepared h => exact h
    | placed h _ => exact absurd h (hlanding _)
  | ok written =>
    obtain ⟨landing, hlanding, rfl⟩ := landing_of_write hwrite
    have hne := landing_ne_nil hlanding
    have hways := keepsWays_insert hne (hasNoWay_of_landing hlanding) (.file content)
    have hback : KeepsWays (t.insert landing (.file content)) t := keepsWays_of_insert hne content
    have hwritten : Confined bytes (· = landing) t (t.insert landing (.file content)) :=
      confined_insert hne hcontent
    cases hmove : (t.insert landing (.file content)).move cwd path.temporary path with
    | error e =>
      rw [replaceFile_of_move_error hwrite hmove]
      dsimp only
      refine (hwritten.trans (confined_removed hbeside.endsInSlash_left)).mono
        fun l node hnode hdir htouches => ?_
      cases htouches with
      | written h => exact Or.inl (Except.ok.inj (h.symm.trans hlanding))
      | prepared h => exact Or.inr (ownLocation_of_keepsWays h hways)
      | placed _ h =>
        obtain ⟨-, own, _, _, hown, -⟩ := landing_eq_ok hlanding
        obtain ⟨moved, hmoved⟩ := exists_move content hbeside hlanding hown h
          (lookup_ne_directory hnode hdir)
        cases hmoved.symm.trans hmove
    | ok moved =>
      rw [replaceFile_of_move_ok hwrite hmove]
      obtain ⟨-, -, source, target, node, hsource, htarget, hnode, -, -, rfl⟩ :=
        move_eq_ok_iff.1 hmove
      have hsource := ownLocation_of_keepsWays hsource hback
      have htarget := ownLocation_of_keepsWays htarget hback
      have herased := hwritten.trans (confined_erase (ownLocation_ne_nil hsource))
      have hmoved := confined_insert (ownLocation_ne_nil htarget)
        (isHarmless_moved hcontent hbeside hlanding hsource htarget hnode herased (Or.inl rfl))
      refine (herased.trans hmoved).mono fun l _ _ _ htouches => ?_
      cases htouches with
      | written h => exact Or.inl (Or.inl (Except.ok.inj (h.symm.trans hlanding)))
      | prepared h => exact Or.inl (Or.inr (Except.ok.inj (h.symm.trans hsource)))
      | placed _ h => exact Or.inr (Except.ok.inj (h.symm.trans htarget))

/-! ## One file after the other -/

/-- Nothing on a route is touched when the files of segments are put in place one after the other,
up to the first that cannot be. -/
def Spares (cwd : Location) (route : List Location) (d : Destination) (header : Header) :
    FileTree → List Segment → Prop
  | _, [] => True
  | t, s :: rest =>
    (∀ l ∈ route, ¬ Touches t cwd (d.pathFor s.index) l) ∧
      ∀ t', t.replaceFile cwd (d.pathFor s.index) (Tsv.encode header s.bareRows) = (.ok (), t') →
        Spares cwd route d header t' rest

/-- **A path leads to its file after the files of segments have been put in place** if and only if
it led there before and they spared its route. -/
theorem leads_writeSegments_iff {d : Destination} (hstem : Stem.validate d.stem = .ok ())
    {header : Header} {links : Nat} {here loc : Location} {names : List Bytes} :
    ∀ {segments : List Segment} {t : FileTree},
      (∀ s ∈ segments, Tsv.encode header s.bareRows ≠ bytes) →
        (Leads (writeSegments cwd d header t segments) links here names (.entry loc (.file bytes))
            route ↔
          Leads t links here names (.entry loc (.file bytes)) route ∧
            Spares cwd route d header t segments) := by
  intro segments
  induction segments with
  | nil => exact fun _ => ⟨fun h => ⟨h, trivial⟩, fun h => h.1⟩
  | cons s rest ih =>
    intro t hbytes
    have hrest := fun t => ih (t := t) fun s hs => hbytes s (List.mem_cons_of_mem _ hs)
    have hbeside : (d.pathFor s.index).temporary.Beside (d.pathFor s.index) :=
      Path.temporary_beside (Stem.isPiece hstem s.index) d.dir
    have hconfined : Confined bytes (Touches t cwd (d.pathFor s.index)) t
        (t.replaceFile cwd (d.pathFor s.index) (Tsv.encode header s.bareRows)).2 :=
      confined_replaceFile (hbytes s List.mem_cons_self) hbeside
    have hkeeps : (∀ l ∈ route, ¬ Touches t cwd (d.pathFor s.index) l) → Keeps route t
        (t.replaceFile cwd (d.pathFor s.index) (Tsv.encode header s.bareRows)).2 :=
      keeps_replaceFile
    rcases hreplace : t.replaceFile cwd (d.pathFor s.index) (Tsv.encode header s.bareRows)
      with ⟨e | ⟨⟩, t'⟩
    · rw [hreplace] at hconfined hkeeps
      rw [writeSegments_of_error hreplace, Spares, hreplace]
      constructor
      · intro h
        obtain ⟨hlead, hno⟩ := hconfined.leads h
        exact ⟨hlead, hno, by simp⟩
      · exact fun ⟨hlead, hno, _⟩ => hlead.of_keeps (hkeeps hno)
    · rw [hreplace] at hconfined hkeeps
      rw [writeSegments_of_ok hreplace, hrest, Spares, hreplace]
      constructor
      · rintro ⟨h, hspares⟩
        obtain ⟨hlead, hno⟩ := hconfined.leads h
        exact ⟨hlead, hno, by rintro _ ⟨⟩; exact hspares⟩
      · exact fun ⟨hlead, hno, hspares⟩ =>
          ⟨hlead.of_keeps (hkeeps hno), hspares t' rfl⟩

end FileTree

end LogSplit
