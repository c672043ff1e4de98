/-
`wasix_worker.rs`, `PinnedWorkerExecutable::open`: the executable of a worker is opened once, by an
absolute path, and everything after that goes by the descriptor.

In every later state the descriptor is that of the node at the path, and the node is a regular
executable of a trusted owner without set-id bits and capabilities whose digest is the one that was
calculated (`opened_is_pinned`).
-/
import WasmRuntime.ControlAgreement
import WasmRuntime.NameTree
import WasmRuntime.Segments

set_option autoImplicit false

namespace WasmRuntime.Worker.Pin

open ByteCodec Prog

/-! ## Paths

The library and the kernel cut a path alike; the two dots they treat differently. -/

/-- `std::path::Component`, as they come in an absolute path. -/
inductive Component where
  | RootDir
  | ParentDir
  | Normal (name : String)
  deriving DecidableEq

/-- What stands between two slashes. Nothing and a dot are skipped, by the library as by the
kernel. -/
def component (segment : List Char) : Option Component :=
  if segment = [] ∨ segment = ['.'] then none
  else if segment = ['.', '.'] then some .ParentDir
  else some (.Normal (String.ofList segment))

/-- `Path::components` of an absolute path. -/
def components (path : String) : List Component :=
  .RootDir :: (Segments.split '/' path.toList).filterMap component

/-- The components of `Path::parent`. -/
def parent (path : String) : Option (List Component) :=
  if components path = [.RootDir] then none else some (components path).dropLast

/-- `Path::display` of a path that was put together from components. -/
def display (path : List Component) : String :=
  "/" ++ "/".intercalate (path.filterMap fun
    | .RootDir => none
    | .ParentDir => some ".."
    | .Normal name => some name)

/-! ## The kernel

The kernel's walk is one effect for each name, not one for the whole path. A descriptor is a name of
its own: those of the directories are closed again, and a number that is used twice is two
descriptors here. -/

/-- A node of the file system. -/
abbrev Ino := ℕ

/-- `rustix::fs::FileType`, as far as this code and the kernel's walk distinguish. -/
inductive NodeType where
  | RegularFile
  | Directory
  | Symlink
  | Other
  deriving DecidableEq

/-- `FileType::from_raw_mode`. -/
def NodeType.from_raw_mode (st_mode : UInt32) : NodeType :=
  if st_mode &&& 0o170000 = 0o100000 then .RegularFile
  else if st_mode &&& 0o170000 = 0o040000 then .Directory
  else if st_mode &&& 0o170000 = 0o120000 then .Symlink
  else .Other

/-- What a node is. `capability` is the extended attribute `security.capability`, empty if there
is none. -/
structure Inode where
  st_mode : UInt32
  st_uid : UInt32
  content : Bytes
  entries : String → Option Ino
  capability : Bytes

/-- The fields of `rustix::fs::Stat` that `open` reads. -/
structure NodeStat where
  st_mode : UInt32
  st_uid : UInt32
  st_size : ℤ

def Inode.stat (inode : Inode) : NodeStat := ⟨inode.st_mode, inode.st_uid, inode.content.length⟩

/-- `rustix::io::Errno`. -/
inductive Errno where
  | NODATA
  | NOTSUP
  | other (text : String)

/-- Its `Display`. -/
def Errno.to_string : Errno → String
  | .NODATA => "No data available (os error 61)"
  | .NOTSUP => "Operation not supported (os error 95)"
  | .other text => text

/-- The calls that `open` makes. A walk is made of lookups, and ends with the descriptor that is
installed for the node it has come to. -/
inductive PinOp where
  | lookup (directory : Ino) (name : Component)
  | install (node : Ino) (directory : Bool)
  | fstat (descriptor : Fd)
  | fgetxattr (descriptor : Fd)
  | input (op : InputOp)

/-- What each is answered with. -/
@[reducible] def PinAnswer : PinOp → Type
  | .lookup _ _ => Except Errno Ino
  | .install _ _ => Except Errno Fd
  | .fstat _ => Except Errno NodeStat
  | .fgetxattr _ => Except Errno ℕ
  | .input op => InputAnswer op

/-- A program over these calls. -/
abbrev PinM (ε : Type) := Fallible PinOp PinAnswer ε

/-- One call, and its answer. -/
def call (op : PinOp) : Prog PinOp PinAnswer (PinAnswer op) := perform op

/-- The names of a path, one after the other. -/
def walk : Ino → List Component → PinM Errno Ino
  | node, [] => pure node
  | node, name :: rest => do
      let next ← call (.lookup node name)
      walk next rest

/-- `openat2` of an absolute path with `NO_SYMLINKS` and `NO_MAGICLINKS`. -/
def openat2 (path : List Component) (directory : Bool) : PinM Errno Fd := do
  let node ← walk 0 path
  call (.install node directory)

/-- `open`s inputs are read as those of a worker are. -/
def reads {ε α : Type} (p : InputM ε α) : PinM ε α := p.lift .input fun _ answer => answer

/-! ## `PinnedWorkerExecutable::open`

The path is walked once for every directory above the executable, and once more for the
executable. -/

/-- `trusted_worker_owner`, in a process with this effective user. -/
def trusted_worker_owner (euid owner : UInt32) : Bool := owner == 0 || owner == euid

def validate_worker_ancestor (euid : UInt32) (path : List Component) : PinM Error Unit := do
  let descriptor ← Fallible.orElse (fun error => .Configuration
    ("cannot pin WASIX worker ancestor " ++ display path ++ ": " ++ error.to_string))
    (openat2 path true)
  let stat ← Fallible.orElse (fun error => .Configuration
    ("cannot inspect WASIX worker ancestor " ++ display path ++ ": " ++ error.to_string))
    (call (.fstat descriptor))
  Fallible.reject (NodeType.from_raw_mode stat.st_mode != .Directory
      || !trusted_worker_owner euid stat.st_uid || stat.st_mode &&& 0o022 != 0)
    (.Configuration ("WASIX worker ancestor is not owner-controlled: " ++ display path))

/-- The loop of `validate_worker_ancestors`. `checked` is the `prefix` of the source. -/
def ancestors_loop (euid : UInt32) : List Component → List Component → PinM Error Unit
  | _, [] => pure ()
  | checked, .RootDir :: rest => ancestors_loop euid checked rest
  | checked, .Normal name :: rest => do
      validate_worker_ancestor euid (checked ++ [.Normal name])
      ancestors_loop euid (checked ++ [.Normal name]) rest
  | _, .ParentDir :: _ =>
    Fallible.throw (.Configuration "WASIX worker path is not canonical")

def validate_worker_ancestors (euid : UInt32) (path : String) : PinM Error Unit := do
  let parent ← Fallible.ok_or (.Configuration "WASIX worker path has no parent directory")
    (parent path)
  validate_worker_ancestor euid [.RootDir]
  ancestors_loop euid [.RootDir] parent

def validate_worker_file_stat (euid : UInt32) (path : String) (stat : NodeStat) :
    PinM Error Unit :=
  Fallible.reject (NodeType.from_raw_mode stat.st_mode != .RegularFile || decide (stat.st_size ≤ 0)
      || !trusted_worker_owner euid stat.st_uid || stat.st_mode &&& 0o111 == 0
      || stat.st_mode &&& 0o6022 != 0)
    (.Configuration ("WASIX worker must be one owner-controlled, non-setid executable: " ++ path))

def validate_worker_file_capabilities (path : String) (descriptor : Fd) : PinM Error Unit := do
  let answer ← Fallible.run (call (.fgetxattr descriptor))
  match answer with
  | .ok 0 => pure ()
  | .ok (_ + 1) => Fallible.throw (.Configuration
      ("WASIX worker must not have file capabilities: " ++ path))
  | .error .NODATA => pure ()
  | .error .NOTSUP => pure ()
  | .error error => Fallible.throw (.Configuration
      ("cannot inspect pinned WASIX worker file capabilities for " ++ path ++ ": "
        ++ error.to_string))

/-- `PinnedWorkerExecutable::open`. -/
def PinnedWorkerExecutable.open (W : Env) (euid : UInt32) (path : String) :
    PinM Error PinnedWorkerExecutable := do
  validate_worker_ancestors euid path
  let descriptor ← Fallible.orElse (fun error => .Configuration
    ("cannot pin WASIX worker " ++ path ++ " with openat2: " ++ error.to_string))
    (openat2 (components path) false)
  let stat ← Fallible.orElse (fun error => .Configuration
    ("cannot inspect pinned WASIX worker " ++ path ++ ": " ++ error.to_string))
    (call (.fstat descriptor))
  validate_worker_file_stat euid path stat
  validate_worker_file_capabilities path descriptor
  let bytes ← Fallible.ok_or (.Configuration ("WASIX worker size is invalid: " ++ path))
    (if 0 ≤ stat.st_size then some stat.st_size.toNat else none)
  let sha256 ← Fallible.orElse .Configuration
    (reads (sha256_descriptor W descriptor bytes "pinned WASIX worker"))
  pure ⟨descriptor, path, sha256⟩

/-! ## The file system, and the others

Between any two steps, and inside a walk between any two names, other processes rename, replace,
rewrite or chmod whatever they have a right to. What the code counts on is that a node whose owner
is root or the user it runs as, and which group and others may not write, is left alone
(`Inode.Fixed`, `Others`). Which nodes are of this kind is what the code finds out. -/

/-- The nodes, and what the descriptors of the process stand for. -/
structure Disk where
  root : Ino
  inodes : Ino → Option Inode
  descriptors : Fd → Option Ino

/-- A node of this type. -/
def Disk.Is (d : Disk) (node : Ino) (type : NodeType) : Prop :=
  ∃ inode, d.inodes node = some inode ∧ NodeType.from_raw_mode inode.st_mode = type

/-- What a lookup finds. A link is not followed, and the parent of a directory is one. -/
def Disk.Finds (d : Disk) (directory : Ino) (name : Component) (node : Ino) : Prop :=
  match name with
  | .RootDir => node = d.root
  | .ParentDir => d.Is node .Directory
  | .Normal name => ∃ inode, d.inodes directory = some inode ∧ inode.entries name = some node ∧
      ∃ child, d.inodes node = some child ∧ NodeType.from_raw_mode child.st_mode ≠ .Symlink

/-- A descriptor's node. -/
def Disk.Holds (d : Disk) (descriptor : Fd) (inode : Inode) : Prop :=
  ∃ node, d.descriptors descriptor = some node ∧ d.inodes node = some inode

/-- What a call does. Any call may fail; none of them changes a node. -/
def kernel (d : Disk) : (op : PinOp) → PinAnswer op → Disk → Prop
  | .lookup directory name, answer, d' => d' = d ∧
      ∀ node, answer = .ok node → d.Finds directory name node
  | .install _ _, .error _, d' => d' = d
  | .install node _, .ok descriptor, d' => d.descriptors descriptor = none ∧
      d' = { d with descriptors := Function.update d.descriptors descriptor (some node) }
  | .fstat descriptor, answer, d' => d' = d ∧
      ∀ stat, answer = .ok stat → ∃ inode, d.Holds descriptor inode ∧ stat = inode.stat
  | .fgetxattr descriptor, answer, d' => d' = d ∧
      ∀ inode, d.Holds descriptor inode →
        (∀ bytes, answer = .ok bytes → bytes = inode.capability.length) ∧
        (answer = .error .NODATA ∨ answer = .error .NOTSUP → inode.capability = [])
  | .input (.pread descriptor len offset), answer, d' => d' = d ∧
      ∀ bytes inode, answer = .ok bytes → d.Holds descriptor inode →
        ReadOf inode.content len offset bytes.val
  | .input _, _, d' => d' = d

/-- A node of a trusted owner that nobody else may write. -/
def Inode.Fixed (euid : UInt32) (inode : Inode) : Prop :=
  trusted_worker_owner euid inode.st_uid = true ∧ inode.st_mode &&& 0o022 = 0

/-- The names lead there, through fixed directories. -/
abbrev Disk.Leads (euid : UInt32) (d : Disk) : List String → Ino → Prop :=
  NameTree.Leads (Inode.Fixed euid) Inode.entries d.inodes d.root

/-- What other processes, and the other threads of this one, may do: anything to any node that is
not fixed, except that a node stays of its type. Descriptors of this call stay what they are. -/
structure Others (euid : UInt32) (d d' : Disk) : Prop where
  root : d'.root = d.root
  fixed : NameTree.Keeps (Inode.Fixed euid) d.inodes d'.inodes
  types : ∀ node type, d.Is node type → d'.Is node type
  descriptors : ∀ descriptor node, d.descriptors descriptor = some node →
    d'.descriptors descriptor = some node

theorem Others.refl (euid : UInt32) (d : Disk) : Others euid d d :=
  ⟨rfl, NameTree.Keeps.refl _, fun _ _ h => h, fun _ _ h => h⟩

theorem Others.trans {euid : UInt32} {d d' d'' : Disk} (h : Others euid d d')
    (h' : Others euid d' d'') : Others euid d d'' :=
  ⟨h'.root.trans h.root, h.fixed.trans h'.fixed,
    fun node type his => h'.types node type (h.types node type his), fun descriptor node hnode =>
    h'.descriptors descriptor node (h.descriptors descriptor node hnode)⟩

/-- Among the others, and being one of them. -/
def logic (euid : UInt32) : Rg Disk PinOp PinAnswer where
  rely := Others euid
  step := kernel
  guar d _ _ d' := Others euid d d'
  rely_refl := Others.refl euid
  rely_trans _ _ _ := Others.trans

/-- A call does no more to the disk than the others may. -/
theorem kernel_others (euid : UInt32) {d d' : Disk} {op : PinOp} {r : PinAnswer op}
    (h : kernel d op r d') : Others euid d d' := by
  cases op with
  | lookup _ _ | fstat _ | fgetxattr _ =>
    obtain ⟨rfl, -⟩ := h
    exact Others.refl euid _
  | install node directory =>
    cases r with
    | error e =>
      obtain rfl := h
      exact Others.refl euid _
    | ok descriptor =>
      obtain ⟨hnew, rfl⟩ := h
      refine ⟨rfl, NameTree.Keeps.refl _, fun _ _ his => his, ?_⟩
      intro other held hheld
      have hne : other ≠ descriptor := by
        rintro rfl
        rw [hnew] at hheld
        cases hheld
      exact (Function.update_of_ne hne _ _).trans hheld
  | input op =>
    have hsame : d' = d := by
      cases op with
      | pread file len offset => exact h.1
      | _ => exact h
    rw [hsame]
    exact Others.refl euid _

/-! ## Facts that the others leave alone

Where fixed nodes lead, and what a descriptor stands for. -/

variable {euid : UInt32} {d d' : Disk}

open Monitor

variable {names : List String} {node : Ino} {descriptor : Fd} {inode : Inode}
  {P : Ino → Disk → Prop} {path : String}

/-- A protected path stays as it is. -/
theorem Others.leads (h : Others euid d d') (hleads : d.Leads euid names node) :
    d'.Leads euid names node := by
  unfold Disk.Leads
  rw [h.root]
  exact hleads.keeps h.fixed

/-- The names lead to a node that is fixed itself. -/
def Disk.Secured (euid : UInt32) (d : Disk) (names : List String) : Prop :=
  ∃ node inode, d.Leads euid names node ∧ d.inodes node = some inode ∧ inode.Fixed euid

/-- A descriptor of the node that the names lead to. -/
def Disk.Opened (euid : UInt32) (d : Disk) (names : List String) (descriptor : Fd) : Prop :=
  ∃ node, d.descriptors descriptor = some node ∧ d.Leads euid names node

theorem Others.opened (h : Others euid d d') (hopened : d.Opened euid names descriptor) :
    d'.Opened euid names descriptor := by
  obtain ⟨node, hnode, hleads⟩ := hopened
  exact ⟨node, h.descriptors _ _ hnode, h.leads hleads⟩

/-- So does a file that nobody else may write. -/
theorem Others.holds (h : Others euid d d') (hholds : d.Holds descriptor inode)
    (hfixed : inode.Fixed euid) : d'.Holds descriptor inode := by
  obtain ⟨node, hnode, hinode⟩ := hholds
  exact ⟨node, h.descriptors _ _ hnode, h.fixed _ _ hinode hfixed⟩

/-! ## The walk

A walk along names that are known comes to the node that is known. -/

/-- One call, whatever the others do before it. -/
theorem call_safe (op : PinOp) {Q : PinAnswer op → Disk → Prop}
    (hQ : ∀ d₁, Others euid d d₁ → ∀ r d₂, kernel d₁ op r d₂ → Q r d₂)
    (hstable : ∀ r d₁ d₂, Others euid d₁ d₂ → Q r d₁ → Q r d₂) :
    (logic euid).Safe Q (call op) d :=
  safe_perform (fun d₁ h₁ r d₂ hmove => ⟨kernel_others euid hmove, hQ d₁ h₁ r d₂ hmove⟩) hstable

/-- One name, and the rest of the walk from what it leads to. -/
theorem walk_cons {directory : Ino} {name : Component} {rest : List Component}
    {Q : Ino → Disk → Prop} (hstable : ∀ node d₁ d₂, Others euid d₁ d₂ → P node d₁ → P node d₂)
    (hfinds : ∀ d₁ node, Others euid d d₁ → d₁.Finds directory name node → P node d₁)
    (hrest : ∀ node d', P node d' → (logic euid).Safe (Post Q) (walk node rest) d') :
    (logic euid).Safe (Post Q) (walk directory (name :: rest)) d := by
  refine safe_bind (call_safe (.lookup directory name) (Q := Post P) ?_ ?_) hrest
  · intro d₁ h₁ r d₂ hmove
    obtain ⟨rfl, hfound⟩ := hmove
    exact .of fun node hnode => hfinds _ node h₁ (hfound node hnode)
  · exact fun r d₁ d₂ hothers hr => hr.imp fun node => hstable node d₁ d₂ hothers

/-- Names that lead to a node lead the walk there. -/
theorem walk_along {target : Ino} {rest : List Component} {Q : Ino → Disk → Prop}
    (h : NameTree.Leads (Inode.Fixed euid) Inode.entries d.inodes node names target)
    (hrest : ∀ d', Others euid d d' → (logic euid).Safe (Post Q) (walk target rest) d') :
    (logic euid).Safe (Post Q) (walk node (names.map .Normal ++ rest)) d := by
  -- The directory in hand is fixed each time, so its entry is the one that is known.
  induction names generalizing node d with
  | nil =>
    cases h
    exact hrest d (Others.refl euid d)
  | cons name names ih =>
    cases h with
    | @through _ next _ inode _ _ hnode hfixed hentry hleads =>
    refine walk_cons (P := fun found d' => found = next ∧ Others euid d d')
      (fun _ _ _ hothers h => ⟨h.1, h.2.trans hothers⟩) ?_ ?_
    · rintro d₁ found h₁ ⟨inode', hinode', hentry', -⟩
      obtain rfl := Option.some.inj ((h₁.fixed _ _ hnode hfixed).symm.trans hinode')
      exact ⟨Option.some.inj (hentry'.symm.trans hentry), h₁⟩
    · rintro _ d' ⟨rfl, hothers⟩
      exact ih (hleads.keeps hothers.fixed) fun d'' h'' => hrest d'' (hothers.trans h'')

/-- The names of a path, and what is found under its last component. -/
theorem walk_last {target : Ino} {last : Component} (h : d.Leads euid names target)
    (hstable : ∀ node d₁ d₂, Others euid d₁ d₂ → P node d₁ → P node d₂)
    (hfinds : ∀ d₁ node, Others euid d d₁ → d₁.Finds target last node → P node d₁) :
    (logic euid).Safe (Post P) (walk 0 (.RootDir :: (names.map .Normal ++ [last]))) d := by
  refine walk_cons (P := fun found d' => found = d.root ∧ Others euid d d')
    (fun _ _ _ hothers h => ⟨h.1, h.2.trans hothers⟩)
    (fun d₁ found h₁ hfound => ⟨Eq.trans hfound h₁.root, h₁⟩) ?_
  rintro _ d' ⟨rfl, h'⟩
  refine walk_along (h.keeps h'.fixed) fun d'' h'' => ?_
  refine walk_cons hstable (fun d₁ node h₁ => hfinds d₁ node ((h'.trans h'').trans h₁)) ?_
  exact fun node d₁ hP d₂ hothers => hstable node d₁ d₂ hothers hP

/-- What stays so of a node stays so when it is opened. -/
theorem openat2_safe {path : List Component} {directory : Bool}
    (hstable : ∀ node d₁ d₂, Others euid d₁ d₂ → P node d₁ → P node d₂)
    (hwalk : (logic euid).Safe (Post P) (walk 0 path) d) :
    (logic euid).Safe (Post fun descriptor d' => ∃ node, d'.descriptors descriptor = some node ∧
      P node d') (openat2 path directory) d := by
  refine safe_bind hwalk ?_
  intro node d' hnode
  refine call_safe (.install node directory) ?_ ?_
  · intro d₁ h₁ r d₂ hmove
    have hothers := h₁.trans (kernel_others euid hmove)
    cases r with
    | error e => trivial
    | ok descriptor =>
      obtain ⟨-, rfl⟩ := hmove
      exact ⟨node, Function.update_self _ _ _, hstable _ _ _ hothers hnode⟩
  · refine fun r d₁ d₂ hothers hr => hr.imp ?_
    rintro descriptor ⟨node, hheld, hP⟩
    exact ⟨node, hothers.descriptors _ _ hheld, hstable _ _ _ hothers hP⟩

/-- What a name leads to in a directory that is fixed. -/
theorem finds_next {directory : Ino} {name : String} (hleads : d.Leads euid names directory)
    (hnode : d.inodes directory = some inode) (hfixed : inode.Fixed euid) (d₁ : Disk) (node : Ino)
    (h₁ : Others euid d d₁) (hfound : d₁.Finds directory (.Normal name) node) :
    d₁.Leads euid (names ++ [name]) node := by
  obtain ⟨inode', hinode', hentry, -⟩ := hfound
  obtain rfl := Option.some.inj ((h₁.fixed _ _ hnode hfixed).symm.trans hinode')
  exact (h₁.leads hleads).snoc hinode' hfixed hentry

/-! ## The directories

`open` checks the directories from the root downwards, so each is found through directories that are
known to be fixed already. -/

/-- What `fstat` tells of a descriptor's node is true of some moment since. -/
theorem fstat_safe {wrap : Errno → Error} (descriptor : Fd) :
    (logic euid).Safe (Post fun stat d' => ∃ d₀ inode, Others euid d d₀ ∧ Others euid d₀ d' ∧
        d₀.Holds descriptor inode ∧ stat = inode.stat)
      (Fallible.orElse wrap (call (.fstat descriptor))) d := by
  refine safe_orElse (call_safe (.fstat descriptor) ?_ fun r d₁ d₂ hothers hr => hr.imp ?_)
  · rintro d₁ h₁ r _ ⟨rfl, hseen⟩
    refine .of fun stat hstat => ?_
    obtain ⟨inode, hholds⟩ := hseen stat hstat
    exact ⟨_, inode, h₁, Others.refl euid _, hholds⟩
  · rintro stat ⟨d₀, inode, h₀, h₁, hseen⟩
    exact ⟨d₀, inode, h₀, h₁.trans hothers, hseen⟩

/-- A directory that was opened by its names and passes the check is fixed from then on. -/
theorem validate_worker_ancestor_safe {path : List Component}
    (hopen : (logic euid).Safe (Post fun descriptor d' => d'.Opened euid names descriptor)
      (openat2 path true) d) :
    (logic euid).Safe (Post fun _ d' => d'.Secured euid names)
      (validate_worker_ancestor euid path) d := by
  refine safe_bind (safe_orElse hopen) ?_
  intro descriptor d₁ hopened
  refine safe_bind (fstat_safe descriptor) ?_
  rintro stat d₂ ⟨d₀, inode, h₀, h₂, ⟨node', hnode', hinode⟩, rfl⟩
  refine .mono (safe_reject _ _ (I := fun d' => Others euid d₂ d') fun _ h => h) ?_
  refine fun r d₃ hr => hr.imp ?_
  rintro _ ⟨hchecked, hothers⟩
  simp only [Bool.or_eq_false_iff, Bool.not_eq_false', bne_eq_false_iff_eq] at hchecked
  have hfixed : inode.Fixed euid := ⟨hchecked.1.2, hchecked.2⟩
  obtain ⟨node, hnode, hleads⟩ := h₀.opened hopened
  obtain rfl := Option.some.inj (hnode.symm.trans hnode')
  have hlater := h₂.trans hothers
  exact ⟨node, inode, hlater.leads hleads, hlater.fixed _ _ hinode hfixed, hfixed⟩

/-- All the directories, from those that are fixed already. A path that is let through is made of
names. -/
theorem ancestors_loop_safe (names : List String) (rest : List Component)
    (hrest : .RootDir ∉ rest) (h : d.Secured euid names) :
    (logic euid).Safe (Post fun _ d' => ∃ more : List String, rest = more.map .Normal ∧
        d'.Secured euid (names ++ more))
      (ancestors_loop euid (.RootDir :: names.map .Normal) rest) d := by
  induction rest generalizing names d with
  | nil =>
    intro d' hothers
    obtain ⟨node, inode, hleads, hnode, hfixed⟩ := h
    refine ⟨[], rfl, node, inode, ?_, Others.fixed hothers _ _ hnode hfixed, hfixed⟩
    rw [List.append_nil]
    exact Others.leads hothers hleads
  | cons component rest ih =>
    have htail : .RootDir ∉ rest := fun hmem => hrest (List.mem_cons_of_mem _ hmem)
    cases component with
    | RootDir => exact absurd List.mem_cons_self hrest
    | ParentDir => exact fun _ _ => trivial
    | Normal name =>
      obtain ⟨node, inode, hleads, hnode, hfixed⟩ := h
      refine safe_bind (validate_worker_ancestor_safe (openat2_safe (fun _ _ _ h => h.leads)
        (walk_last hleads (fun _ _ _ h => h.leads) (finds_next hleads hnode hfixed)))) ?_
      intro _ d' hsecured
      have hnext := ih (names ++ [name]) htail hsecured
      rw [List.map_append] at hnext
      refine .mono hnext fun r d'' hr => hr.imp ?_
      rintro _ ⟨more, rfl, hmore⟩
      refine ⟨name :: more, rfl, ?_⟩
      rw [List.append_cons]
      exact hmore

theorem rootDir_notMem (path : List Char) :
    .RootDir ∉ (Segments.split '/' path).filterMap component := by
  intro hmem
  obtain ⟨segment, -, hsegment⟩ := List.mem_filterMap.mp hmem
  unfold component at hsegment
  split_ifs at hsegment <;> cases hsegment

/-- `validate_worker_ancestors`: the directories above the last component are all fixed. -/
theorem validate_worker_ancestors_safe (path : String) :
    (logic euid).Safe (Post fun _ d' => ∃ (names : List String) (last : Component),
        components path = .RootDir :: (names.map .Normal ++ [last]) ∧ last ≠ .RootDir ∧
        d'.Secured euid names)
      (validate_worker_ancestors euid path) d := by
  have hroot : (logic euid).Safe (Post fun descriptor d' => d'.Opened euid [] descriptor)
      (openat2 [.RootDir] true) d := by
    refine openat2_safe (fun _ _ _ h => h.leads) (walk_cons
      (P := fun node d' => d'.Leads euid [] node) (fun _ _ _ h => h.leads) ?_ ?_)
    · rintro d₁ _ - rfl
      exact .here d₁.root
    · exact fun node d₁ hleads d₂ hothers => Others.leads hothers hleads
  have hnoroot := rootDir_notMem path.toList
  unfold validate_worker_ancestors parent components
  generalize (Segments.split '/' path.toList).filterMap component = below at hnoroot ⊢
  by_cases hbelow : below = []
  · rw [hbelow, if_pos rfl]
    exact fun _ _ => trivial
  have hdrop : .RootDir ∉ below.dropLast := fun hmem => hnoroot (List.dropLast_subset below hmem)
  rw [if_neg fun h => hbelow (List.cons.inj h).2, List.dropLast_cons_of_ne_nil hbelow]
  show (logic euid).Safe _ (validate_worker_ancestor euid [.RootDir] >>= _ : PinM Error Unit) d
  refine safe_bind (validate_worker_ancestor_safe hroot) fun _ d₁ hsecured => ?_
  refine .mono (ancestors_loop_safe [] below.dropLast hdrop hsecured) ?_
  refine fun r d₂ hr => hr.imp ?_
  rintro _ ⟨names, hnames, hsecured⟩
  refine ⟨names, below.getLast hbelow, ?_, ?_, hsecured⟩
  · rw [← hnames, List.dropLast_append_getLast hbelow]
  · exact fun h => hnoroot (h ▸ List.getLast_mem hbelow)

/-! ## The file

The executable is checked by its descriptor: from there on its bytes are fixed, and they are hashed
after that. -/

/-- What the checks of the executable itself establish. -/
structure Inode.Executable (euid : UInt32) (inode : Inode) : Prop where
  regular : NodeType.from_raw_mode inode.st_mode = .RegularFile
  nonempty : inode.content ≠ []
  owner : trusted_worker_owner euid inode.st_uid = true
  executable : inode.st_mode &&& 0o111 ≠ 0
  plain : inode.st_mode &&& 0o6022 = 0

/-- Neither set-id bits nor write bits, so no write bits. -/
theorem Inode.Executable.fixed (h : inode.Executable euid) : inode.Fixed euid := by
  refine ⟨h.owner, ?_⟩
  have hmask : (0o022 : UInt32) = 0o6022 &&& 0o022 := by decide
  rw [hmask, ← UInt32.and_assoc, h.plain]
  exact UInt32.zero_and

theorem validate_worker_file_stat_safe (path : String) (inode : Inode) :
    (logic euid).Safe (Post fun _ d' => inode.Executable euid ∧ Others euid d d')
      (validate_worker_file_stat euid path inode.stat) d := by
  refine .mono (safe_reject _ _ (I := fun d' => Others euid d d') fun _ h => h) ?_
  refine fun r d' hr => hr.imp ?_
  rintro _ ⟨hchecked, hothers⟩
  simp only [Bool.or_eq_false_iff, Bool.not_eq_false', bne_eq_false_iff_eq,
    beq_eq_false_iff_ne, decide_eq_false_iff_not] at hchecked
  obtain ⟨⟨⟨⟨hregular, hsize⟩, howner⟩, hexecutable⟩, hplain⟩ := hchecked
  refine ⟨⟨hregular, ?_, howner, hexecutable, hplain⟩, hothers⟩
  intro hempty
  unfold Inode.stat at hsize
  rw [hempty] at hsize
  exact hsize (le_refl 0)

theorem validate_worker_file_capabilities_safe (path : String) (hholds : d.Holds descriptor inode)
    (hfixed : inode.Fixed euid) :
    (logic euid).Safe (Post fun _ d' => inode.capability = [] ∧ Others euid d d')
      (validate_worker_file_capabilities path descriptor) d := by
  intro d₁ h₁ r d₂ (hmove : kernel d₁ (.fgetxattr descriptor) r d₂)
  refine ⟨kernel_others euid hmove, ?_⟩
  obtain ⟨rfl, hseen⟩ := hmove
  obtain ⟨hbytes, hnone⟩ := hseen inode (h₁.holds hholds hfixed)
  cases r with
  | ok bytes =>
    cases bytes with
    | zero =>
      have hempty := List.eq_nil_of_length_eq_zero (hbytes 0 rfl).symm
      exact fun d₃ h₃ => ⟨hempty, h₁.trans h₃⟩
    | succ n => exact fun _ _ => trivial
  | error e =>
    cases e with
    | NODATA => exact fun d₃ h₃ => ⟨hnone (.inl rfl), h₁.trans h₃⟩
    | NOTSUP => exact fun d₃ h₃ => ⟨hnone (.inr rfl), h₁.trans h₃⟩
    | other text => exact fun _ _ => trivial

/-- The content of one file. -/
def onlyFile (descriptor : Fd) (content : Bytes) (file : Fd) : Option Bytes :=
  if file = descriptor then some content else none

/-- A fixed file hashes to the digest of its bytes, in however many reads. -/
theorem sha256_descriptor_safe (W : Env) (bytes : ℕ) (label : String)
    (hholds : d.Holds descriptor inode) (hfixed : inode.Fixed euid) :
    (logic euid).Safe (Post fun sha256 d' => sha256 = W.sha256_hex inode.content ∧
        Others euid d d')
      (reads (sha256_descriptor W descriptor bytes label)) d := by
  have hupholds : (reading (onlyFile descriptor inode.content)).Upholds readsOnly
      (Post fun sha256 _ => sha256 = W.sha256_hex inode.content ∧ bytes = inode.content.length)
      (sha256_descriptor W descriptor bytes label) () :=
    hash_descriptor_upholds W _ (if_pos rfl) bytes
  unfold reads
  refine .mono (hupholds.safe (I := Others euid d) (fun _ _ hothers h => h.trans hothers) ?_
    (Others.refl euid d)) ?_
  · intro _ d₁ op r d₂ _ h₁ hmove
    have hothers := kernel_others euid hmove
    refine ⟨?_, hothers, h₁.trans hothers⟩
    cases op with
    | pread file len offset =>
      cases r with
      | error e => trivial
      | ok read =>
        intro content hcontent
        unfold onlyFile at hcontent
        split_ifs at hcontent with hfile
        obtain rfl := Option.some.inj hcontent
        exact hmove.2 read inode rfl (hfile ▸ h₁.holds hholds hfixed)
    | _ => trivial
  · rintro r d' ⟨⟨_, hr⟩, hothers⟩
    exact Post.imp hr fun _ h => ⟨h.1, hothers⟩

/-! ## The whole call

The last walk may end in a directory, which is no regular file. -/

/-- What a pinned executable is: the node that the path leads to, through fixed directories, an
executable of a trusted owner without capabilities, and its digest. -/
structure Pinned (W : Env) (euid : UInt32) (path : String) (exe : PinnedWorkerExecutable)
    (d : Disk) : Prop where
  path_eq : exe.path = path
  found : ∃ (names : List String) (inode : Inode), components path = .RootDir :: names.map .Normal ∧
    d.Opened euid names exe.descriptor ∧ d.Holds exe.descriptor inode ∧ inode.Executable euid ∧
    inode.capability = [] ∧ exe.sha256 = W.sha256_hex inode.content

/-- What the last walk comes to: the node that the names of the path lead to, or a directory. -/
def Disk.Last (euid : UInt32) (d : Disk) (path : String) (node : Ino) : Prop :=
  (∃ names : List String, components path = .RootDir :: names.map .Normal ∧
    d.Leads euid names node) ∨ d.Is node .Directory

theorem Others.last (h : Others euid d d') (hlast : d.Last euid path node) :
    d'.Last euid path node := by
  refine hlast.imp ?_ (h.types node _)
  rintro ⟨names, hnames, hleads⟩
  exact ⟨names, hnames, h.leads hleads⟩

theorem openat2_last {last : Component}
    (hpath : components path = .RootDir :: (names.map .Normal ++ [last])) (hlast : last ≠ .RootDir)
    (h : d.Secured euid names) :
    (logic euid).Safe (Post fun descriptor d' => ∃ node, d'.descriptors descriptor = some node ∧
      d'.Last euid path node) (openat2 (components path) false) d := by
  obtain ⟨node, inode, hleads, hnode, hfixed⟩ := h
  refine openat2_safe (fun _ _ _ h => h.last) ?_
  rw [hpath]
  refine walk_last hleads (fun _ _ _ h => h.last) fun d₁ found h₁ hfound => ?_
  cases last with
  | RootDir => exact absurd rfl hlast
  | ParentDir => exact .inr hfound
  | Normal name =>
    refine .inl ⟨names ++ [name], ?_, finds_next hleads hnode hfixed d₁ found h₁ hfound⟩
    rw [hpath, List.map_append]
    rfl

/-- A regular file is no directory. -/
theorem Disk.Last.leads (h : d.Last euid path node) (hinode : d.inodes node = some inode)
    (hregular : NodeType.from_raw_mode inode.st_mode = .RegularFile) :
    ∃ names : List String, components path = .RootDir :: names.map .Normal ∧
      d.Leads euid names node := by
  rcases h with h | ⟨inode', hinode', htype⟩
  · exact h
  · obtain rfl := Option.some.inj (hinode.symm.trans hinode')
    rw [hregular] at htype
    cases htype

/-- Among others that may do anything to nodes that are not fixed, at any step of any walk: an
executable that the call has returned is pinned, then and in every later state. The call itself does
no more than they may, so any number of calls can be made at once. -/
theorem opened_is_pinned (W : Env) (euid : UInt32) (path : String) (d : Disk) :
    (logic euid).Safe (Post fun exe d' => Pinned W euid path exe d')
      (PinnedWorkerExecutable.open W euid path) d := by
  refine safe_bind (validate_worker_ancestors_safe path) ?_
  rintro _ d₁ ⟨names, last, hpath, hlast, hsecured⟩
  refine safe_bind (safe_orElse (openat2_last hpath hlast hsecured)) ?_
  rintro descriptor d₂ ⟨node, hnode, hlast⟩
  refine safe_bind (fstat_safe descriptor) ?_
  rintro stat d₃ ⟨d₀, inode, h₀, h₃, ⟨node', hnode', hinode⟩, rfl⟩
  obtain rfl := Option.some.inj ((h₀.descriptors _ _ hnode).symm.trans hnode')
  refine safe_bind (validate_worker_file_stat_safe path inode) ?_
  rintro _ d₄ ⟨hexecutable, h₄⟩
  -- From here on the node is fixed.
  have hfixed := hexecutable.fixed
  have hholds := h₃.holds ⟨node, hnode', hinode⟩ hfixed
  obtain ⟨names, hnames, hleads⟩ := (h₀.last hlast).leads hinode hexecutable.regular
  refine safe_bind (validate_worker_file_capabilities_safe path (h₄.holds hholds hfixed) hfixed) ?_
  rintro _ d₅ ⟨hcapability, h₅⟩
  have hothers := h₄.trans h₅
  show (logic euid).Safe _ (Fallible.orElse .Configuration (reads (sha256_descriptor W descriptor
    inode.content.length "pinned WASIX worker")) >>= _ : PinM Error PinnedWorkerExecutable) d₅
  refine safe_bind (safe_orElse (sha256_descriptor_safe W inode.content.length
    "pinned WASIX worker" (hothers.holds hholds hfixed) hfixed)) ?_
  rintro sha256 d₆ ⟨rfl, h₆⟩ d₇ h₇
  have hlater := hothers.trans (h₆.trans h₇)
  exact ⟨rfl, names, inode, hnames, (h₃.trans hlater).opened ⟨node, hnode', hleads⟩,
    hlater.holds hholds hfixed, hexecutable, hcapability, rfl⟩

/-! ## A run

Two calls for one path, each making a step in its turn, on a disk where nobody else is at work. The
kernel here answers every call it can. -/

/-- The node of a descriptor. -/
def Disk.held (d : Disk) (descriptor : Fd) : Option Inode :=
  (d.descriptors descriptor).bind d.inodes

theorem holds_iff : d.Holds descriptor inode ↔ d.held descriptor = some inode :=
  Option.bind_eq_some_iff.symm

/-- A kernel whose calls do not fail. A descriptor is the first that is free. -/
def Disk.answer (d : Disk) : (op : PinOp) → Option (PinAnswer op × Disk)
  | .lookup _ .RootDir => some (.ok d.root, d)
  | .lookup directory (.Normal name) => do
      let inode ← d.inodes directory
      let node ← inode.entries name
      let child ← d.inodes node
      if NodeType.from_raw_mode child.st_mode = .Symlink then none else some (.ok node, d)
  | .install node _ => do
      let descriptor ← (List.range 16).find? fun descriptor => d.descriptors descriptor == none
      some (.ok descriptor,
        { d with descriptors := Function.update d.descriptors descriptor (some node) })
  | .fstat descriptor => (d.held descriptor).map fun inode => (.ok inode.stat, d)
  | .fgetxattr descriptor =>
    (d.held descriptor).map fun inode => (.ok inode.capability.length, d)
  | .input (.pread descriptor len offset) => (d.held descriptor).map fun inode =>
    (.ok ⟨(inode.content.drop offset).take len, List.length_take_le _ _⟩, d)
  | _ => none

/-- What is computed is what the kernel may do. -/
theorem kernel_of_answer (d : Disk) (op : PinOp) (r : PinAnswer op) (d' : Disk)
    (h : d.answer op = some (r, d')) : kernel d op r d' := by
  unfold Disk.answer at h
  split at h
  · cases h
    exact ⟨rfl, fun node hnode => (Except.ok.inj hnode).symm⟩
  · simp only [Option.bind_eq_bind, Option.bind_eq_some_iff] at h
    obtain ⟨inode, hinode, node, hnode, child, hchild, h⟩ := h
    split_ifs at h with hlink
    cases h
    refine ⟨rfl, ?_⟩
    rintro _ ⟨⟩
    exact ⟨inode, hinode, hnode, child, hchild, hlink⟩
  · obtain ⟨descriptor, hfree, h⟩ := Option.bind_eq_some_iff.mp h
    cases h
    have hnone := List.find?_some hfree
    exact ⟨eq_of_beq hnone, rfl⟩
  · obtain ⟨inode, hheld, h⟩ := Option.map_eq_some_iff.mp h
    cases h
    exact ⟨rfl, fun stat hstat => ⟨inode, holds_iff.mpr hheld, (Except.ok.inj hstat).symm⟩⟩
  · obtain ⟨inode, hheld, h⟩ := Option.map_eq_some_iff.mp h
    cases h
    refine ⟨rfl, fun inode' h' => ⟨?_, nofun⟩⟩
    rintro _ ⟨⟩
    rw [Option.some.inj (hheld.symm.trans (holds_iff.mp h'))]
  · obtain ⟨inode, hheld, h⟩ := Option.map_eq_some_iff.mp h
    cases h
    refine ⟨rfl, ?_⟩
    rintro _ inode' ⟨⟩ h'
    rw [← Option.some.inj (hheld.symm.trans (holds_iff.mp h'))]
    exact ReadOf.take_drop inode.content _ _
  · cases h

/-- A directory of root, and an executable in it. -/
def sampleDisk : Disk where
  root := 2
  inodes
    | 2 => some ⟨0o040755, 0, [], fun name => if name = "worker" then some 3 else none, []⟩
    | 3 => some ⟨0o100755, 0, [127, 69, 76, 70], fun _ => none, []⟩
    | _ => none
  descriptors _ := none

/-- Two calls that have yet to begin. -/
def openingTwice : Pool (Fin 2) Disk PinOp PinAnswer (Except Error PinnedWorkerExecutable) :=
  ⟨sampleDisk, fun _ => PinnedWorkerExecutable.open sampleTranscriptEnv 1000 "/./worker"⟩

/-- Both return an executable, and both are pinned. -/
theorem opened_is_pinned_twice : ∃ P, Pool.Run kernel (Others 1000) openingTwice P ∧
    ∀ i, ∃ exe, P.threads i = .ret (.ok exe) ∧
      Pinned sampleTranscriptEnv 1000 "/./worker" exe P.state := by
  have hcomputed : (openingTwice.follow Disk.answer (List.replicate 16 [0, 1]).flatten).map
      (fun P => decide (∀ i, (P.result i).any Except.isOk = true)) = some true := by decide +kernel
  obtain ⟨P, hP, hok⟩ := Option.map_eq_some_iff.mp hcomputed
  have hrun : Pool.Run kernel (Others 1000) openingTwice P := Pool.follow_run kernel_of_answer hP
  refine ⟨P, hrun, fun i => ?_⟩
  obtain ⟨r, hresult, hr⟩ := (Option.any_eq_true _ _).mp (of_decide_eq_true hok i)
  have hi := Pool.threads_of_result hresult
  have hsafe := Pool.safe (L := logic 1000) (fun _ _ _ _ h => h) (fun _ _ h => h)
    (fun _ => opened_is_pinned sampleTranscriptEnv 1000 "/./worker" sampleDisk) hrun i
  rw [hi] at hsafe
  cases r with
  | error e => cases hr
  | ok exe => exact ⟨exe, hi, hsafe P.state (Others.refl 1000 _)⟩

end WasmRuntime.Worker.Pin
