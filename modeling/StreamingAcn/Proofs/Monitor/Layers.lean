/-
StreamingAcn.Proofs.Monitor.Layers — flags over a file over defaults.

Every field of a plan has the value of the uppermost layer that gives one: flags, then the file that
they name, then the defaults. Whether a plan can be carried out is asked of what comes out and of no
layer by itself, so a value of the file that a flag covers never matters. A file that cannot be
read, or that says something else than wishes, is fatal whatever the flags say.

Definitions:

* `Gives`, `FileGives`, `Holds`: what a key, the tables and the octets of a file give;
* `Refuses`: why octets give no wishes;
* `Chosen`, `Layered`: the value of a field, and of all fields of a plan, out of the layers;
* `Plan.CanRun`: a plan that can be carried out.

Main statement: `flags_override_file`.
-/
import StreamingAcn.Monitor.Launch

namespace StreamingAcn.Monitor

open Toml (Node)
open PlanFile (Content)

/-! ## The values of a file -/

/-- A node that is a text which reads as a value. -/
def IsText {α : Type} (ofText? : String → Option α) (node : Node) (a : α) : Prop :=
  ∃ s, node = .string s ∧ ofText? s = some a

/-- A node that is a number and not negative. -/
def IsNatural (node : Node) (n : Nat) : Prop := node = .integer n

/-- A node that is the list of some universes. -/
def IsUniverses (node : Node) (us : List UniverseId) : Prop :=
  node = .array (us.map fun u => .integer u.toNat)

/-- A node that names a form: its name, or a table with nothing but that name, and nothing under
it. -/
inductive IsFormat : Node → Format → Prop
  | name {s : String} {form : Format} (hs : Format.ofName? s = some form) :
      IsFormat (.string s) form
  | table {origin : Toml.Origin} {s : String} {node : Node} {form : Format}
      (hs : Format.ofName? s = some form) (hempty : PlanFile.isEmpty node = true) :
      IsFormat (.table origin [(s, node)]) form

theorem text?_iff {α : Type} {ofText? : String → Option α} {node : Node} {a : α} :
    (PlanFile.text? node).bind ofText? = some a ↔ IsText ofText? node a := by
  cases node <;> simp [PlanFile.text?, IsText]

theorem boolean?_iff {node : Node} {b : Bool} :
    PlanFile.boolean? node = some b ↔ node = .boolean b := by
  cases node <;> simp [PlanFile.boolean?]

theorem natural?_iff {node : Node} {n : Nat} :
    PlanFile.natural? node = some n ↔ IsNatural node n := by
  cases node with
  | integer m =>
    rw [PlanFile.natural?, IsNatural, Node.integer.injEq]
    split
    · rw [Option.some.injEq]
      omega
    · next hneg => exact ⟨nofun, fun h => absurd (h ▸ Int.natCast_nonneg n) hneg⟩
  | string s => simp [PlanFile.natural?, IsNatural]
  | boolean b => simp [PlanFile.natural?, IsNatural]
  | array items => simp [PlanFile.natural?, IsNatural]
  | table origin entries => simp [PlanFile.natural?, IsNatural]

theorem universe?_iff {node : Node} {u : UniverseId} :
    PlanFile.universe? node = some u ↔ node = .integer u.toNat := by
  rw [PlanFile.universe?, Option.bind_eq_some_iff]
  constructor
  · rintro ⟨n, hn, hu⟩
    split at hu
    · next hlt =>
      cases hu
      rw [natural?_iff.1 hn, UInt16.toNat_ofNat_of_lt' hlt]
    · cases hu
  · intro h
    exact ⟨u.toNat, natural?_iff.2 h, by rw [if_pos u.toNat_lt, UInt16.ofNat_toNat]⟩

theorem universes?_iff {node : Node} {us : List UniverseId} :
    PlanFile.universes? node = some us ↔ IsUniverses node us := by
  cases node with
  | array items =>
    rw [PlanFile.universes?, IsUniverses, Node.array.injEq]
    induction items generalizing us with
    | nil => cases us <;> simp
    | cons node rest ih =>
      cases us with
      | nil => simp [List.mapM_cons, Option.bind_eq_some_iff]
      | cons u us => simp [List.mapM_cons, Option.bind_eq_some_iff, universe?_iff, ih]
  | string s => simp [PlanFile.universes?, IsUniverses]
  | boolean b => simp [PlanFile.universes?, IsUniverses]
  | integer n => simp [PlanFile.universes?, IsUniverses]
  | table origin entries => simp [PlanFile.universes?, IsUniverses]

theorem format?_iff {node : Node} {form : Format} :
    PlanFile.format? node = some form ↔ IsFormat node form := by
  constructor
  · intro h
    unfold PlanFile.format? at h
    split at h
    · exact .name h
    · split at h
      · next hempty => exact .table h hempty
      · cases h
    · cases h
  · rintro (hs | ⟨hs, hempty⟩)
    · exact hs
    · simpa only [PlanFile.format?, if_pos hempty] using hs

/-! ## What a file gives -/

/-- What entries give under a key, where `Means` says what a node stands for. -/
inductive Gives {α : Type} (entries : Node.Entries) (key : String) (Means : Node → α → Prop) :
    Option α → Prop
  | absent (hkey : Node.find? key entries = none) : Gives entries key Means none
  | present {node : Node} {a : α} (hkey : Node.find? key entries = some node)
      (hnode : Means node a) : Gives entries key Means (some a)

theorem member?_iff {α : Type} {read? : Node → Option α} {Means : Node → α → Prop}
    (hread : ∀ node a, read? node = some a ↔ Means node a) {key : String}
    {entries : Node.Entries} {value : Option α} :
    PlanFile.member? read? key entries = some value ↔ Gives entries key Means value := by
  unfold PlanFile.member?
  constructor
  · intro h
    split at h
    · next hkey =>
      cases h
      exact .absent hkey
    · next node hkey =>
      obtain ⟨a, ha, rfl⟩ := Option.map_eq_some_iff.1 h
      exact .present hkey ((hread node a).1 ha)
  · rintro (hkey | ⟨hkey, hnode⟩)
    · rw [hkey]
    · rw [hkey]
      exact Option.map_eq_some_iff.2 ⟨_, (hread _ _).2 hnode, rfl⟩

/-- The wishes that the tables of a file make. There are no keys but those of wishes. -/
structure FileGives (entries : Node.Entries) (w : Wishes) : Prop where
  known : ∀ e ∈ entries, e.1 ∈ PlanFile.keys
  endpoint : Gives entries "bind" (IsText Network.Endpoint.ofText?) w.endpoint
  interface : Gives entries "interface" (IsText Network.Ipv4.ofText?) w.interface
  multicast : Gives entries "multicast" (fun node b => node = .boolean b) w.multicast
  universes : Gives entries "universes" IsUniverses w.universes
  timeoutMs : Gives entries "timeout_ms" IsNatural w.timeoutMs
  sinkCapacity : Gives entries "sink_capacity" IsNatural w.sinkCapacity
  format : Gives entries "format" IsFormat w.format

theorem ofEntries?_iff {entries : Node.Entries} {w : Wishes} :
    PlanFile.ofEntries? entries = some w ↔ FileGives entries w := by
  have hknown : (entries.all fun e => PlanFile.keys.contains e.1) = true ↔
      ∀ e ∈ entries, e.1 ∈ PlanFile.keys := by
    simp only [List.all_eq_true, List.contains_iff_mem]
  unfold PlanFile.ofEntries?
  split
  · next hkeys =>
    simp only [Option.bind_eq_bind, Option.bind_eq_some_iff, Option.pure_def, Option.some.injEq,
      member?_iff fun _ _ => text?_iff, member?_iff fun _ _ => boolean?_iff,
      member?_iff fun _ _ => universes?_iff, member?_iff fun _ _ => natural?_iff,
      member?_iff fun _ _ => format?_iff]
    constructor
    · rintro ⟨_, hendpoint, _, hinterface, _, hmulticast, _, huniverses, _, htimeout, _, hsink, _,
        hformat, rfl⟩
      exact ⟨hknown.1 hkeys, hendpoint, hinterface, hmulticast, huniverses, htimeout, hsink,
        hformat⟩
    · rintro ⟨-, hendpoint, hinterface, hmulticast, huniverses, htimeout, hsink, hformat⟩
      exact ⟨_, hendpoint, _, hinterface, _, hmulticast, _, huniverses, _, htimeout, _, hsink, _,
        hformat, rfl⟩
  · next hkeys => exact ⟨nofun, fun h => absurd (hknown.2 h.known) hkeys⟩

/-- Octets that are the text of tables that make the given wishes. -/
def Holds (content : Content) (w : Wishes) : Prop :=
  ∃ bytes text entries, content = .octets bytes ∧ Text.Utf8.decode? bytes = some text ∧
    Toml.parse? text = some entries ∧ FileGives entries w

/-- Why a file gives no wishes. -/
inductive Refuses : Content → FileError → Prop
  | missing : Refuses .missing .missing
  | unreadable (cause : String) : Refuses (.unreadable cause) (.unreadable cause)
  | notText {bytes : Octets} (htext : Text.Utf8.decode? bytes = none) :
      Refuses (.octets bytes) .notText
  | malformed {bytes : Octets} {text : String} (htext : Text.Utf8.decode? bytes = some text)
      (hnone : ∀ entries w, Toml.parse? text = some entries → ¬ FileGives entries w) :
      Refuses (.octets bytes) .malformed

theorem ofText?_iff {text : String} {w : Wishes} : PlanFile.ofText? text = some w ↔
    ∃ entries, Toml.parse? text = some entries ∧ FileGives entries w := by
  simp only [PlanFile.ofText?, Option.bind_eq_some_iff, ofEntries?_iff]

/-- A file either gives wishes or is refused, and reading it finds out which and why. -/
theorem read_spec (content : Content) :
    (∃ w, PlanFile.read content = .ok w ∧ Holds content w) ∨
      ∃ e, PlanFile.read content = .error e ∧ Refuses content e := by
  cases content with
  | missing => exact .inr ⟨.missing, rfl, .missing⟩
  | unreadable cause => exact .inr ⟨.unreadable cause, rfl, .unreadable cause⟩
  | octets bytes =>
    rw [PlanFile.read]
    split
    · next htext => exact .inr ⟨.notText, rfl, .notText htext⟩
    · next text htext =>
      split
      · next hnone =>
        refine .inr ⟨.malformed, rfl, .malformed htext fun entries w hparse hgives => ?_⟩
        cases hnone.symm.trans (ofText?_iff.2 ⟨entries, hparse, hgives⟩)
      · next w hw =>
        obtain ⟨entries, hparse, hgives⟩ := ofText?_iff.1 hw
        exact .inl ⟨w, rfl, bytes, text, entries, rfl, htext, hparse, hgives⟩

theorem read_eq_ok_iff {content : Content} {w : Wishes} :
    PlanFile.read content = .ok w ↔ Holds content w := by
  constructor
  · intro h
    rcases read_spec content with ⟨v, hread, hv⟩ | ⟨e, hread, -⟩
    · cases h.symm.trans hread
      exact hv
    · cases h.symm.trans hread
  · rintro ⟨bytes, text, entries, rfl, htext, hparse, hgives⟩
    simp only [PlanFile.read, htext, ofText?_iff.2 ⟨entries, hparse, hgives⟩]

/-! ## The layers of a plan -/

/-- The value of a field: that of the flags, or else that of the file, or else the default. -/
inductive Chosen {α : Type} (default : α) : (flag file : Option α) → α → Prop
  | flag (a : α) (file : Option α) : Chosen default (some a) file a
  | file (a : α) : Chosen default none (some a) a
  | default : Chosen default none none default

theorem chosen_getD {α : Type} (default : α) (flag file : Option α) :
    Chosen default flag file ((flag.or file).getD default) := by
  cases flag with
  | some a => exact .flag a file
  | none =>
    cases file with
    | some a => exact .file a
    | none => exact .default

/-- A field that can stay without a value. -/
theorem chosen_or {α : Type} (flag file : Option α) :
    Chosen none (flag.map some) (file.map some) (flag.or file) := by
  have h := chosen_getD none (flag.map some) (file.map some)
  cases flag <;> cases file <;> exact h

theorem Chosen.unique {α : Type} {default a b : α} {flag file : Option α}
    (ha : Chosen default flag file a) (hb : Chosen default flag file b) : a = b := by
  cases ha <;> cases hb <;> rfl

/-- What the file gives only matters where the flags are silent. -/
theorem Chosen.of_silent {α : Type} {default a : α} {flag file other : Option α}
    (h : Chosen default flag file a) (hsame : flag = none → file = other) :
    Chosen default flag other a := by
  cases h with
  | flag a file => exact .flag a other
  | file a => exact hsame rfl ▸ .file a
  | default => exact hsame rfl ▸ .default

/-- The plan of some flags over the wishes of a file. -/
structure Layered (f : Flags) (w : Wishes) (p : Plan) : Prop where
  endpoint : Chosen (.v4 .unspecified 5568) f.endpoint w.endpoint p.endpoint
  interface : Chosen none (f.interface.map some) (w.interface.map some) p.interface
  /-- A flag can only switch it off. -/
  multicast : Chosen true (if f.noMulticast then some false else none) w.multicast p.multicast
  /-- The universes of the flags come in place of those of the file, not besides them. -/
  universes : Chosen [] (if f.universes = [] then none else some f.universes) w.universes
    p.universes
  timeoutMs : Chosen 2500 f.timeoutMs w.timeoutMs p.timeoutMs
  /-- There is no flag for it. -/
  sinkCapacity : Chosen 64 none w.sinkCapacity p.sinkCapacity
  format : Chosen .text f.format w.format p.format

theorem layered_ofWishes (f : Flags) (w : Wishes) :
    Layered f w (Plan.ofWishes (f.wishes.orElse w)) where
  endpoint := chosen_getD _ _ _
  interface := chosen_or _ _
  multicast := chosen_getD _ _ _
  universes := by
    have hflags : f.wishes.universes = if f.universes = [] then none else some f.universes := by
      simp only [Flags.wishes, List.isEmpty_iff]
    rw [← hflags]
    exact chosen_getD _ _ _
  timeoutMs := chosen_getD _ _ _
  sinkCapacity := chosen_getD _ _ _
  format := chosen_getD _ _ _

theorem Layered.unique {f : Flags} {w : Wishes} {p q : Plan} (hp : Layered f w p)
    (hq : Layered f w q) : p = q := by
  cases p
  cases q
  rw [Plan.mk.injEq]
  exact ⟨hp.endpoint.unique hq.endpoint, hp.interface.unique hq.interface,
    hp.multicast.unique hq.multicast, hp.universes.unique hq.universes,
    hp.timeoutMs.unique hq.timeoutMs, hp.sinkCapacity.unique hq.sinkCapacity,
    hp.format.unique hq.format⟩

/-- Wishes of files that differ at most in what the flags cover. -/
structure SameWhereSilent (f : Flags) (v w : Wishes) : Prop where
  endpoint : f.endpoint = none → v.endpoint = w.endpoint
  interface : f.interface = none → v.interface = w.interface
  multicast : f.noMulticast = false → v.multicast = w.multicast
  universes : f.universes = [] → v.universes = w.universes
  timeoutMs : f.timeoutMs = none → v.timeoutMs = w.timeoutMs
  sinkCapacity : v.sinkCapacity = w.sinkCapacity
  format : f.format = none → v.format = w.format

theorem Layered.of_silent {f : Flags} {v w : Wishes} {p : Plan} (h : Layered f v p)
    (hsame : SameWhereSilent f v w) : Layered f w p where
  endpoint := h.endpoint.of_silent hsame.endpoint
  interface := h.interface.of_silent fun hnone => by
    rw [hsame.interface (Option.map_eq_none_iff.1 hnone)]
  multicast := h.multicast.of_silent fun hnone => hsame.multicast (by simpa using hnone)
  universes := h.universes.of_silent fun hnone => hsame.universes (by simpa using hnone)
  timeoutMs := h.timeoutMs.of_silent hsame.timeoutMs
  sinkCapacity := h.sinkCapacity.of_silent fun _ => hsame.sinkCapacity
  format := h.format.of_silent hsame.format

/-! ## Plans that can be carried out -/

/-- There is something to watch, it can carry data, and silence can be told. -/
structure Plan.CanRun (p : Plan) : Prop where
  universes : p.universes ≠ []
  inRange : ∀ u ∈ p.universes, 1 ≤ u.toNat ∧ u.toNat ≤ 63999
  timeout : p.timeoutMs ≠ 0

theorem fault?_eq_none_iff {p : Plan} : p.fault? = none ↔ p.CanRun := by
  have hrange : p.universes.find? (fun u => !UniverseId.isData u) = none ↔
      ∀ u ∈ p.universes, 1 ≤ u.toNat ∧ u.toNat ≤ 63999 := by
    simp only [List.find?_eq_none, Bool.not_eq_true', Bool.not_eq_false, UniverseId.isData_iff]
  unfold Plan.fault?
  constructor
  · intro h
    split at h
    · cases h
    · next hempty =>
      split at h
      · cases h
      · next hnone =>
        split at h
        · cases h
        · next hzero => exact ⟨mt List.isEmpty_iff.2 hempty, hrange.1 hnone, hzero⟩
  · intro h
    rw [if_neg (mt List.isEmpty_iff.1 h.universes), hrange.2 h.inRange]
    exact if_neg h.timeout

/-! ## Launching -/

/-- The wishes under the flags: none where they name no file, or else those of the file. -/
inductive Flags.Loads (f : Flags) (contentOf : String → Content) : Wishes → Prop
  | unnamed (hfile : f.file = none) : Loads f contentOf {}
  | named {path : String} {w : Wishes} (hfile : f.file = some path)
      (hw : Holds (contentOf path) w) : Loads f contentOf w

variable {f : Flags} {contentOf : String → Content} {w : Wishes} {p : Plan}

theorem fileWishes_of_loads (h : f.Loads contentOf w) : f.fileWishes contentOf = .ok w := by
  unfold Flags.fileWishes
  cases h with
  | unnamed hfile => rw [hfile]
  | named hfile hw => simp only [hfile, read_eq_ok_iff.2 hw]

/-- A launch comes to what is at fault with the plan of the layers, and to the plan itself where
nothing is. -/
theorem launch_of_layered (h : f.Loads contentOf w) (hp : Layered f w p) :
    f.launch contentOf = p.fault?.elim (.ok p) fun fault => .error (.plan fault) := by
  obtain rfl := hp.unique (layered_ofWishes f w)
  simp only [Flags.launch, fileWishes_of_loads h]
  cases (Plan.ofWishes (f.wishes.orElse w)).fault? with
  | none => rfl
  | some fault => rfl

/-- **Flags override the file field by field.** A file that is named and gives no wishes is what a
launch fails with. Otherwise the layers make one plan: that is launched if it can be carried out,
and else the launch fails on the plan. Files that differ only in what the flags cover launch
alike. -/
theorem flags_override_file (f : Flags) (contentOf : String → Content) :
    (∀ path, f.file = some path → (∀ w, ¬ Holds (contentOf path) w) →
      ∃ e, Refuses (contentOf path) e ∧ f.launch contentOf = .error (.file path e)) ∧
    (∀ w, f.Loads contentOf w → ∃ p, Layered f w p ∧
      (∀ q, f.launch contentOf = .ok q ↔ q = p ∧ p.CanRun) ∧
      (¬ p.CanRun → ∃ fault, f.launch contentOf = .error (.plan fault))) ∧
    ∀ otherContentOf v w, f.Loads contentOf v → f.Loads otherContentOf w → SameWhereSilent f v w →
      f.launch contentOf = f.launch otherContentOf := by
  refine ⟨fun path hfile hnone => ?_, fun w hw => ?_, fun otherContentOf v w hv hw hsame => ?_⟩
  · rcases read_spec (contentOf path) with ⟨w, -, hw⟩ | ⟨e, hread, he⟩
    · exact absurd hw (hnone w)
    · exact ⟨e, he, by simp only [Flags.launch, Flags.fileWishes, hfile, hread]⟩
  · obtain ⟨p, hp⟩ : ∃ p, Layered f w p := ⟨_, layered_ofWishes f w⟩
    have hlaunch := launch_of_layered hw hp
    refine ⟨p, hp, fun q => ?_, fun hcan => ?_⟩
    · rw [hlaunch, ← fault?_eq_none_iff]
      cases p.fault? <;> simp [eq_comm]
    · obtain ⟨fault, hfault⟩ := Option.ne_none_iff_exists'.1 (mt fault?_eq_none_iff.1 hcan)
      exact ⟨fault, by rw [hlaunch, hfault, Option.elim_some]⟩
  · have hp := layered_ofWishes f v
    rw [launch_of_layered hv hp, launch_of_layered hw (hp.of_silent hsame)]

/-- The text of a file that could not be carried out by itself. -/
def coveredText : String := "universes = [0]\ntimeout_ms = 0\nsink_capacity = 9\n"

/-- Flags that cover what is wrong with it. -/
def coveringFlags : Flags where
  file := some "plan.toml"
  universes := [7, 1, 7]
  timeoutMs := some 500

theorem flags_override_file_covered :
    coveringFlags.launch (fun _ => .octets (Text.Utf8.encode coveredText)) = .ok
      { endpoint := .v4 .unspecified 5568, interface := none, multicast := true,
        universes := [7, 1, 7], timeoutMs := 500, sinkCapacity := 9, format := .text } := by
  have htext : Text.Utf8.decode? (Text.Utf8.encode coveredText) = some coveredText := by
    decide +kernel
  have hwishes : PlanFile.ofText? coveredText =
      some { universes := some [0], timeoutMs := some 0, sinkCapacity := some 9 } := by
    decide +kernel
  obtain ⟨entries, hparse, hgives⟩ := ofText?_iff.1 hwishes
  obtain ⟨p, hp, hlaunch, -⟩ := (flags_override_file coveringFlags fun _ => .octets _).2.1 _
    (.named rfl ⟨_, _, entries, rfl, htext, hparse, hgives⟩)
  obtain rfl := hp.unique (layered_ofWishes _ _)
  exact (hlaunch _).2 ⟨rfl, fault?_eq_none_iff.1 (by decide)⟩

end StreamingAcn.Monitor
