import LogSplit.File.Storage

/-!
# Runs on a host, step by step

A run on a host is a function on hosts, and the equations here apply it: to a first step and the
steps behind it, to an operation on the files, and to taking note of an event.  A run that *finds* a
value leaves the files alone, whatever it tells on the way.

Of what is shown, as much is added to the output as the limit of the host allows.  That depends on
all that is shown together and not on the parts in which it comes (`Host.fitting_append`).
-/

set_option autoImplicit false

namespace LogSplit

namespace OnHost

variable {α β : Type} {host host' : Host}

theorem bind_apply (x : OnHost α) (f : α → OnHost β) (host : Host) :
    (x >>= f) host = f (x host).1 (x host).2 := rfl

/-- A first step with a known outcome. -/
theorem bind_of_eq {x : OnHost α} {a : α} (h : x host = (a, host')) (f : α → OnHost β) :
    (x >>= f) host = f a host' := by
  rw [bind_apply, h]

theorem change_ok {operation : FileTree → Location → Except FileError FileTree}
    {files : FileTree} (h : operation host.files host.cwd = .ok files) :
    change operation host = (.ok (), { host with files }) := by
  rw [change, h]

theorem change_error {operation : FileTree → Location → Except FileError FileTree}
    {e : FileError} (h : operation host.files host.cwd = .error e) :
    change operation host = (.error e, host) := by
  rw [change, h]

/-- A run on a host as part of a run with a state of its own, which it leaves alone. -/
theorem run_liftM {σ : Type} (x : OnHost α) (state : σ) (host : Host) :
    (liftM x : StateT σ OnHost α).run state host = (((x host).1, state), (x host).2) := rfl

/-! ## Runs that only look -/

/-- Over some files and from some working directory a run comes to a value, and all that it changes
on the way is the journal. -/
def Finds (files : FileTree) (cwd : Location) (x : OnHost α) (a : α) : Prop :=
  ∀ host : Host, host.files = files → host.cwd = cwd →
    ∃ journal, x host = (a, { host with journal })

variable {files : FileTree} {cwd : Location}

theorem finds_pure (a : α) : Finds files cwd (pure a) a := fun host _ _ => ⟨host.journal, rfl⟩

theorem Finds.bind {x : OnHost α} {f : α → OnHost β} {a : α} {b : β} (hx : Finds files cwd x a)
    (hf : Finds files cwd (f a) b) : Finds files cwd (x >>= f) b := by
  intro host hfiles hcwd
  obtain ⟨journal, hfirst⟩ := hx host hfiles hcwd
  obtain ⟨journal', hrest⟩ := hf { host with journal } hfiles hcwd
  exact ⟨journal', (bind_of_eq hfirst f).trans hrest⟩

theorem finds_ask (question : FileTree → Location → α) :
    Finds files cwd (ask question) (question files cwd) := by
  rintro host rfl rfl
  exact ⟨host.journal, rfl⟩

theorem finds_record (event : Event) : Finds files cwd (Journal.record event) () :=
  fun _ _ _ => ⟨_, rfl⟩

theorem finds_forM_record (events : List Event) :
    Finds files cwd (events.forM Journal.record : OnHost PUnit) () := by
  induction events with
  | nil => exact finds_pure _
  | cons event rest ih => exact (finds_record event).bind ih

end OnHost

/-! ## Showing -/

namespace Host

/-- All of some bytes can be shown. -/
def Fits (host : Host) (bytes : Bytes) : Prop := host.fitting bytes = bytes

instance (host : Host) (bytes : Bytes) : Decidable (host.Fits bytes) :=
  inferInstanceAs (Decidable (_ = _))

/-- The host when as many of some bytes have been shown as can be. -/
def showing (host : Host) (bytes : Bytes) : Host :=
  { host with output := host.output ++ host.fitting bytes }

variable {host : Host} {a b bytes : Bytes}

theorem fits_of_limit (h : host.limit = none) (bytes : Bytes) : host.Fits bytes := by
  rw [Fits, fitting, h]

theorem fitting_prefix (host : Host) (bytes : Bytes) : host.fitting bytes <+: bytes := by
  rw [fitting]
  cases host.limit with
  | none => exact List.prefix_rfl
  | some limit => exact List.take_prefix _ _

theorem fits_iff_length : host.Fits bytes ↔ (host.fitting bytes).length = bytes.length :=
  ⟨congrArg List.length, (host.fitting_prefix bytes).eq_of_length⟩

theorem fits_nil (host : Host) : host.Fits [] := List.prefix_nil.1 (host.fitting_prefix [])

theorem showing_nil (host : Host) : host.showing [] = host := by
  rw [showing, fits_nil, List.append_nil]

/-- It makes no difference whether bytes are shown together or one part after the other. -/
theorem fitting_append (host : Host) (a b : Bytes) :
    host.fitting (a ++ b) = host.fitting a ++ (host.showing a).fitting b := by
  simp only [fitting, showing]
  cases host.limit with
  | none => rfl
  | some limit =>
    simp only [List.take_append, List.length_append, List.length_take]
    congr 2
    omega

/-- Nothing is shown behind a part that has been cut off. -/
theorem fitting_append_of_not_fits (h : ¬ host.Fits a) (b : Bytes) :
    host.fitting (a ++ b) = host.fitting a := by
  rw [Fits, fitting] at h
  rw [fitting, fitting]
  cases hlimit : host.limit with
  | none =>
    rw [hlimit] at h
    exact absurd rfl h
  | some limit =>
    rw [hlimit] at h
    have hlt := Nat.lt_of_not_le fun hle => h (List.take_of_length_le hle)
    exact List.take_append_of_le_length (Nat.le_of_lt hlt)

theorem fits_append_iff : host.Fits (a ++ b) ↔ host.Fits a ∧ (host.showing a).Fits b := by
  constructor
  · intro h
    by_cases ha : host.Fits a
    · rw [Fits, fitting_append, ha] at h
      exact ⟨ha, List.append_cancel_left h⟩
    · have hlength := congrArg List.length h
      rw [fitting_append_of_not_fits ha, List.length_append] at hlength
      have hle := (host.fitting_prefix a).length_le
      exact absurd (fits_iff_length.2 (by omega)) ha
  · rintro ⟨ha, hb⟩
    rw [Fits, fitting_append, ha, hb]

end Host

theorem OnHost.print_apply (text : String) (host : Host) :
    (Console.print text : OnHost (Except FileError Unit)) host
      = (if host.Fits (Utf8.encode text) then .ok () else .error .limitReached,
        host.showing (Utf8.encode text)) := by
  simp only [Host.fits_iff_length]
  rfl

end LogSplit
