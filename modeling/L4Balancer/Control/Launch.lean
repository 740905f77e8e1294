import L4Balancer.Control.Startup

/-!
# Starting and ending

`main` up to its servers, with `XdpDataplane::RunProgram` and the destructor: what they ask of
libbpf and of the kernel (`XdpCall`), whatever these answer, and how `main` ends (`End`). A run of
calls leaves the program attached to an interface or not (`attachedAfter`), and the object of the
program open or not; closing it twice is an error (`objectAfter`).

* If `main` returns, nothing is attached, unless the detach of the destructor fails, which does
  not look at its result. But where `RunProgram` fails with an open object, it closes it and leaves
  the pointer, so that the destructor closes it again.
* An exception that leaves the parser ends the process without a destructor: what `RunProgram`
  has attached stays.
* If `main` gets to its servers, the maps are there exactly if it was given a program. But
  `RunProgram` does not look whether the object has a program of the name: where it has none, the
  descriptor is negative, with which libbpf attaches nothing.
-/

namespace L4Balancer

/-! ## The program -/

/-- A call about the program, with its success where it may fail. -/
inductive XdpCall
  | openFile (binName : String) (ok : Bool)
  | load (ok : Bool)
  | attach (ifindex : ℕ) (progFd : ℤ) (flags : UInt32) (ok : Bool)
  | detach (ifindex : ℕ) (flags : UInt32) (ok : Bool)
  | close
  deriving DecidableEq

/-- What libbpf and the kernel answer. -/
structure Libbpf where
  openFile : String → Bool
  load : Bool
  /-- `bpf_object__find_program_by_name`: the descriptor of the program, if there is one. -/
  findProgramByName : String → Option ℤ
  /-- `if_nametoindex`, zero for an unknown name. -/
  ifNametoindex : String → ℕ
  attach : ℕ → ℤ → UInt32 → Bool
  detach : ℕ → UInt32 → Bool
  hasMap : String → Bool
  /-- `strerror(errno)`. -/
  strerror : String

/-- `bpf_program__fd` of what is found; `-EINVAL` for a null pointer. -/
def Libbpf.progFd (sys : Libbpf) (progName : String) : ℤ :=
  (sys.findProgramByName progName).getD (-22)

def XDP_FLAGS_UPDATE_IF_NOEXIST : UInt32 := 1
def XDP_FLAGS_SKB_MODE : UInt32 := 2

/-- The part of `XdpDataplane` that is about the program. -/
structure Program where
  progName : String
  progInterface : String
  /-- `m_xdpObject` is not null. -/
  object : Bool := false
  interfaceIdx : ℕ := 0
  xdpFlags : UInt32 := 0
  /-- The maps that have been found. -/
  maps : List String := []

/-- The maps in the order in which `RunProgram` opens them. -/
def mapNames : List String :=
  ["backends_first", "backends_second", "services_first", "services_second", "atomic_index",
    "rr_index", "tcp_session_state", "wrr_state_map", "backends_packets_stats",
    "services_packets_stats", "ch_curr_lookup", "ch_prev_lookup", "ch_backends", "ch_config",
    "ddos_cfg", "blacklist", "global_syn"]

namespace Program

variable (sys : Libbpf) (l : Program)

/-- `openBpfMap`, for one name after the other. A map that is missing closes the object. -/
def openBpfMaps : List String → Program → Option String × Program × List XdpCall
  | [], l => (none, l, [])
  | name :: names, l =>
    if sys.hasMap name then openBpfMaps names { l with maps := l.maps ++ [name] }
    else (some s!"failed to find map \"{name}\"", l, [.close])

/-- Attaching the program, in native mode or else in generic mode: the flags it is attached with. -/
def attach (ifindex : ℕ) (progFd : ℤ) : Option UInt32 × List XdpCall :=
  if sys.attach ifindex progFd XDP_FLAGS_UPDATE_IF_NOEXIST then
    (some XDP_FLAGS_UPDATE_IF_NOEXIST, [.attach ifindex progFd XDP_FLAGS_UPDATE_IF_NOEXIST true])
  else
    let ok := sys.attach ifindex progFd XDP_FLAGS_SKB_MODE
    (if ok then some XDP_FLAGS_SKB_MODE else none,
      [.attach ifindex progFd XDP_FLAGS_UPDATE_IF_NOEXIST false,
        .attach ifindex progFd XDP_FLAGS_SKB_MODE ok])

/-- `RunProgram`: its error, the dataplane, and the calls. -/
def runProgram (binName : String) : Option String × Program × List XdpCall :=
  if sys.openFile binName = false then
    (some s!"failed to open bpf: {sys.strerror}", { l with object := false },
      [.openFile binName false])
  else
    let l := { l with object := true }
    if sys.load = false then
      (some s!"failed to load bpf: {sys.strerror}", l,
        [.openFile binName true, .load false, .close])
    else
      -- the pointer is not compared with null
      let progFd := sys.progFd l.progName
      let ifindex := sys.ifNametoindex l.progInterface
      if ifindex = 0 then
        (some s!"failed to find interface {l.progInterface}", l,
          [.openFile binName true, .load true, .close])
      else
        match attach sys ifindex progFd with
        | (none, calls) =>
          (some s!"failed to attach to program {l.progName}",
            { l with xdpFlags := XDP_FLAGS_SKB_MODE },
            .openFile binName true :: .load true :: calls ++ [.close])
        | (some flags, calls) =>
          let (error, l, calls') :=
            openBpfMaps sys mapNames { l with interfaceIdx := ifindex, xdpFlags := flags }
          (error, l, .openFile binName true :: .load true :: calls ++ calls')

/-- `~XdpDataplane`. -/
def destroy : List XdpCall :=
  (if l.interfaceIdx > 0 then
    [.detach l.interfaceIdx l.xdpFlags (sys.detach l.interfaceIdx l.xdpFlags)] else []) ++
    if l.object then [.close] else []

/-- `isValidBpfState`: without these maps `ReloadConfig` returns an error. -/
def isValidBpfState : Bool :=
  ["backends_first", "backends_second", "atomic_index", "services_first", "services_second"].all
    (l.maps.contains ·)

end Program

/-! ## `main` -/

/-- `FileConfigLoader::LoadConfig`: the lines of a file, without their ends. -/
def loadFile (content : String) : String := .ofList (content.toList.filter (· ≠ '\n'))

/-- The command line. -/
structure Options where
  help : Bool := false
  configFile : Option String := none
  format : Option String := none
  xdpBinary : Option String := none
  iface : String := "eth0"

/-- The name of the program that `main` runs. -/
def mainProgName : String := "balancer_handler"

/-- How `main` ends, or gets to its servers. -/
inductive End
  | returned (code : ℤ)
  /-- An exception leaves it, and no destructor is called; or what it does is undefined. -/
  | left (e : ParseFailure)
  | serving (config : BaseConfig) (program : Program)

/-- The content of the configuration file, if `main` gets past the command line. -/
def Options.content (o : Options) (file : String → Option String) : Option String :=
  if o.help then none
  else
    match o.configFile.bind file with
    | none => none
    | some content => if o.format = some "json" then some content else none

/-- `main` up to its servers, with the content of files that can be opened: the calls it makes, and
    how it ends. -/
def launch (sys : Libbpf) (file : String → Option String) (read : String → Except String Json)
    (o : Options) : List XdpCall × End :=
  match o.content file with
  | none => ([], .returned 1)
  | some content =>
    let l : Program := { progName := mainProgName, progInterface := o.iface }
    match o.xdpBinary.elim (none, l, []) (l.runProgram sys) with
    | (some _, l, calls) => (calls ++ l.destroy sys, .returned 1)
    | (none, l, calls) =>
      let data := loadFile content
      if data = "" then (calls ++ l.destroy sys, .returned (-1))
      else
        match parseConfig read data with
        | .error (.message _) => (calls ++ l.destroy sys, .returned 1)
        | .error e => (calls, .left e)
        | .ok config =>
          match config.validate with
          | (_, some _) => (calls ++ l.destroy sys, .returned 1)
          | (config, none) => (calls, .serving config l)

/-! ## What the calls leave -/

/-- The interface that the program is attached to. An attach with a negative descriptor detaches. -/
def XdpCall.attached (i : Option ℕ) : XdpCall → Option ℕ
  | attach ifindex progFd _ true =>
    if 0 ≤ progFd then some ifindex else if i = some ifindex then none else i
  | detach ifindex _ true => if i = some ifindex then none else i
  | _ => i

def attachedAfter (calls : List XdpCall) : Option ℕ := calls.foldl XdpCall.attached none

/-- A detach that fails. -/
def XdpCall.detachFails : XdpCall → Bool
  | detach _ _ ok => !ok
  | _ => false

/-- Whether the object is open; `none` if it is closed without being. -/
def XdpCall.object (isOpen : Bool) : XdpCall → Option Bool
  | openFile _ ok => some ok
  | close => if isOpen then some false else none
  | _ => some isOpen

def objectAfter (calls : List XdpCall) : Option Bool := calls.foldlM XdpCall.object false

theorem attachedAfter_append (calls calls' : List XdpCall) :
    attachedAfter (calls ++ calls') = calls'.foldl XdpCall.attached (attachedAfter calls) :=
  List.foldl_append

theorem objectAfter_append (calls calls' : List XdpCall) :
    objectAfter (calls ++ calls') =
      (objectAfter calls).bind fun isOpen => calls'.foldlM XdpCall.object isOpen :=
  List.foldlM_append

/-- The interface that a dataplane takes its program to be attached to. -/
def Program.index (l : Program) : Option ℕ :=
  if l.interfaceIdx = 0 then none else some l.interfaceIdx

/-- `RunProgram` fails with the object open. -/
def Libbpf.Fails (sys : Libbpf) (progName iface : String) : Prop :=
  sys.load = false ∨ sys.ifNametoindex iface = 0 ∨
    (∀ flags ∈ [XDP_FLAGS_UPDATE_IF_NOEXIST, XDP_FLAGS_SKB_MODE],
      sys.attach (sys.ifNametoindex iface) (sys.progFd progName) flags = false) ∨
    ∃ name ∈ mapNames, sys.hasMap name = false

/-- What is attached where a dataplane takes the program to be: nothing if there is no such
    program. -/
def Libbpf.attachedTo (sys : Libbpf) (progName : String) (i : Option ℕ) : Option ℕ :=
  if 0 ≤ sys.progFd progName then i else none

/-- What `RunProgram` does, with its error, the dataplane and the calls. -/
inductive Ran (sys : Libbpf) (progName iface binName : String) :
    Option String → Program → List XdpCall → Prop
  | unopened {e : String} {l : Program} : sys.openFile binName = false → l.object = false →
      l.index = none → Ran sys progName iface binName (some e) l [.openFile binName false]
  | failed {e : String} {l : Program} {calls : List XdpCall} : sys.openFile binName →
      sys.Fails progName iface → l.object →
      (l.index = none ∨ l.index = some (sys.ifNametoindex iface)) →
      attachedAfter calls = sys.attachedTo progName l.index →
      objectAfter calls = some false → Ran sys progName iface binName (some e) l calls
  | running {l : Program} {calls : List XdpCall} : sys.openFile binName →
      ¬sys.Fails progName iface → l.object → l.index = some (sys.ifNametoindex iface) →
      attachedAfter calls = sys.attachedTo progName l.index → objectAfter calls = some true →
      l.isValidBpfState → Ran sys progName iface binName none l calls

variable {sys : Libbpf} {l : Program}

/-- The maps are all there, or the first one that is missing closes the object. -/
theorem openBpfMaps_spec (names : List String) (l : Program) :
    (∀ name ∈ names, sys.hasMap name) ∧
        Program.openBpfMaps sys names l = (none, { l with maps := l.maps ++ names }, []) ∨
      (∃ name ∈ names, sys.hasMap name = false) ∧ ∃ e maps,
        Program.openBpfMaps sys names l = (some e, { l with maps := maps }, [.close]) := by
  induction names generalizing l with
  | nil =>
    left
    rw [Program.openBpfMaps, List.append_nil]
    exact ⟨by simp, rfl⟩
  | cons name names ih =>
    rw [Program.openBpfMaps]
    cases hname : sys.hasMap name with
    | false => exact .inr ⟨⟨name, List.mem_cons_self, hname⟩, _, l.maps, rfl⟩
    | true =>
      rcases ih { l with maps := l.maps ++ [name] } with ⟨hall, he⟩ | ⟨⟨name', hmem, hno⟩, e, maps, he⟩
      · left
        rw [if_pos rfl, he, List.append_assoc]
        exact ⟨List.forall_mem_cons.2 ⟨hname, hall⟩, rfl⟩
      · right
        rw [if_pos rfl, he]
        exact ⟨⟨name', List.mem_cons_of_mem _ hmem, hno⟩, e, maps, rfl⟩

/-- The program is attached with one of the modes, or with none. -/
theorem attach_spec {ifindex : ℕ} {progFd : ℤ} :
    (∃ flags ∈ [XDP_FLAGS_UPDATE_IF_NOEXIST, XDP_FLAGS_SKB_MODE],
        sys.attach ifindex progFd flags ∧
        ∃ calls, Program.attach sys ifindex progFd = (some flags, calls) ∧
          ∀ isOpen, calls.foldl XdpCall.attached none =
              (if 0 ≤ progFd then some ifindex else none) ∧
            calls.foldlM XdpCall.object isOpen = some isOpen) ∨
      (∀ flags ∈ [XDP_FLAGS_UPDATE_IF_NOEXIST, XDP_FLAGS_SKB_MODE],
        sys.attach ifindex progFd flags = false) ∧
        ∃ calls, Program.attach sys ifindex progFd = (none, calls) ∧
          ∀ isOpen, calls.foldl XdpCall.attached none = none ∧
            calls.foldlM XdpCall.object isOpen = some isOpen := by
  have hdone : ∀ flags, XdpCall.attached none (.attach ifindex progFd flags true) =
      if 0 ≤ progFd then some ifindex else none := fun flags => by
    rw [XdpCall.attached, if_neg (Option.some_ne_none ifindex).symm]
  rw [Program.attach]
  cases hnative : sys.attach ifindex progFd XDP_FLAGS_UPDATE_IF_NOEXIST with
  | true =>
    exact .inl ⟨_, by simp, hnative, _, rfl, fun _ => ⟨hdone XDP_FLAGS_UPDATE_IF_NOEXIST, rfl⟩⟩
  | false =>
    cases hskb : sys.attach ifindex progFd XDP_FLAGS_SKB_MODE with
    | true => exact .inl ⟨_, by simp, hskb, _, rfl, fun _ => ⟨hdone XDP_FLAGS_SKB_MODE, rfl⟩⟩
    | false => exact .inr ⟨by simp [hnative, hskb], _, rfl, fun _ => ⟨rfl, rfl⟩⟩

theorem runProgram_spec (hindex : l.interfaceIdx = 0) (binName : String) :
    let r := l.runProgram sys binName
    Ran sys l.progName l.progInterface binName r.1 r.2.1 r.2.2 := by
  have hnone : l.index = none := if_pos hindex
  have hunattached : none = sys.attachedTo l.progName l.index := by
    rw [hnone, Libbpf.attachedTo, ite_self]
  have hne : ¬true = false := Bool.false_ne_true.symm
  rw [Program.runProgram]
  -- step by step, in the order of the source
  cases hopen : sys.openFile binName with
  | false =>
    rw [if_pos rfl]
    exact .unopened hopen rfl hnone
  | true =>
    rw [if_neg hne]
    cases hload : sys.load with
    | false =>
      rw [if_pos rfl]
      exact .failed hopen (.inl hload) rfl (.inl hnone) hunattached rfl
    | true =>
      rw [if_neg hne]
      dsimp only
      split_ifs with hzero
      · exact .failed hopen (.inr (.inl hzero)) rfl (.inl hnone) hunattached rfl
      · rcases @attach_spec sys (sys.ifNametoindex l.progInterface) (sys.progFd l.progName) with
          ⟨flags, hflags, hattach, calls, he, hcalls⟩ | ⟨hno, calls, he, hcalls⟩
        · rw [he]
          have hattached : attachedAfter (.openFile binName true :: .load true :: calls) =
              sys.attachedTo l.progName (some (sys.ifNametoindex l.progInterface)) :=
            (hcalls true).1
          have hobject : objectAfter (.openFile binName true :: .load true :: calls) = some true :=
            (hcalls true).2
          rcases @openBpfMaps_spec sys mapNames
            { l with object := true, interfaceIdx := sys.ifNametoindex l.progInterface,
                     xdpFlags := flags } with ⟨hall, hmaps⟩ | ⟨hmissing, e, maps, hmaps⟩
          · dsimp only
            rw [hmaps, List.append_nil]
            refine .running hopen ?_ rfl (if_neg hzero)
              (hattached.trans (congrArg _ (if_neg hzero).symm)) hobject ?_
            · rintro (h | h | h | ⟨name, hname, h⟩)
              · exact hne (hload.symm.trans h)
              · exact hzero h
              · exact hne (hattach.symm.trans (h flags hflags))
              · exact hne ((hall name hname).symm.trans h)
            · simp [Program.isValidBpfState, mapNames]
          · dsimp only
            rw [hmaps]
            -- it is attached already, and the destructor will detach it
            refine .failed hopen (.inr (.inr (.inr hmissing))) rfl (.inr (if_neg hzero)) ?_ ?_
            · rw [attachedAfter_append, hattached]
              exact congrArg (sys.attachedTo l.progName) (if_neg hzero).symm
            · rw [objectAfter_append, hobject]
              rfl
        · rw [he]
          have hattached : attachedAfter (.openFile binName true :: .load true :: calls) = none :=
            (hcalls true).1
          have hobject : objectAfter (.openFile binName true :: .load true :: calls) = some true :=
            (hcalls true).2
          refine .failed hopen (.inr (.inr (.inl hno))) rfl (.inl hnone) ?_ ?_
          · rw [attachedAfter_append, hattached]
            exact hunattached
          · rw [objectAfter_append, hobject]
            rfl

/-! ## The end of `main` -/

/-- `RunProgram` does not detach. -/
theorem detachFails_runProgram (l : Program) (binName : String) :
    (l.runProgram sys binName).2.2.any XdpCall.detachFails = false := by
  have hmaps : ∀ names l, (Program.openBpfMaps sys names l).2.2.any XdpCall.detachFails = false := by
    intro names l
    rcases @openBpfMaps_spec sys names l with ⟨-, h⟩ | ⟨-, e, maps, h⟩ <;> rw [h] <;> rfl
  have hattach : ∀ ifindex progFd,
      (Program.attach sys ifindex progFd).2.any XdpCall.detachFails = false := by
    intro ifindex progFd
    rw [Program.attach]
    split_ifs <;> rfl
  rw [Program.runProgram]
  split_ifs with hopen hload
  · rfl
  · rfl
  · dsimp only
    split_ifs with hzero
    · rfl
    · have hcalls := hattach (sys.ifNametoindex l.progInterface) (sys.progFd l.progName)
      generalize Program.attach sys (sys.ifNametoindex l.progInterface) (sys.progFd l.progName) = x
        at hcalls ⊢
      obtain ⟨_ | flags, calls⟩ := x
      · simpa [XdpCall.detachFails] using hcalls
      · dsimp only at hcalls ⊢
        rw [List.any_append, hmaps, Bool.or_false]
        exact hcalls

/-- The destructor detaches what is attached, unless this fails, and closes the object if it has
    one. -/
theorem destroy_spec {calls : List XdpCall} {progName : String} {i : Option ℕ}
    (hattached : attachedAfter calls = sys.attachedTo progName l.index)
    (hindex : l.index = none ∨ l.index = i) (hcalls : calls.any XdpCall.detachFails = false) :
    attachedAfter (calls ++ l.destroy sys) =
        (if (calls ++ l.destroy sys).any XdpCall.detachFails then sys.attachedTo progName i
          else none) ∧
      objectAfter (calls ++ l.destroy sys) =
        if l.object then (objectAfter calls).bind (XdpCall.object · .close) else objectAfter calls := by
  have hdetach : ∀ i, (l.destroy sys).foldl XdpCall.attached i =
      if (l.destroy sys).any XdpCall.detachFails then i
      else if l.interfaceIdx > 0 ∧ i = some l.interfaceIdx then none else i := by
    intro i
    rw [Program.destroy]
    by_cases hpos : l.interfaceIdx > 0
    · rw [if_pos hpos]
      cases sys.detach l.interfaceIdx l.xdpFlags <;> cases l.object <;>
        simp [XdpCall.attached, XdpCall.detachFails, hpos]
    · rw [if_neg hpos, List.nil_append]
      cases l.object <;> simp [XdpCall.attached, hpos]
  have hclose : ∀ isOpen, (l.destroy sys).foldlM XdpCall.object isOpen =
      if l.object then XdpCall.object isOpen .close else some isOpen := by
    intro isOpen
    rw [Program.destroy]
    split_ifs <;> cases isOpen <;> rfl
  constructor
  · rw [attachedAfter_append, List.any_append, hcalls, Bool.false_or, hdetach, hattached]
    rcases Nat.eq_zero_or_pos l.interfaceIdx with hzero | hpos
    · -- nothing is detached
      have hnone : l.index = none := if_pos hzero
      have hany : (l.destroy sys).any XdpCall.detachFails = false := by
        rw [Program.destroy, if_neg (by omega), List.nil_append]
        split_ifs <;> rfl
      rw [hany, hnone, Libbpf.attachedTo, ite_self]
      simp
    · have hsome : l.index = some l.interfaceIdx := if_neg hpos.ne'
      obtain rfl : l.index = i := hindex.resolve_left (by simp [hsome])
      congr 1
      rw [hsome, Libbpf.attachedTo]
      split_ifs <;> simp_all
  · rw [objectAfter_append]
    simp only [hclose]
    cases l.object with
    | true => rfl
    | false => cases objectAfter calls <;> rfl

/-- `RunProgram` is called, and fails with the object open. -/
def Options.Botched (o : Options) (sys : Libbpf) (file : String → Option String) : Prop :=
  (o.content file).isSome ∧ ∃ binName, o.xdpBinary = some binName ∧ sys.openFile binName ∧
    sys.Fails mainProgName o.iface

/-- The dataplane and the calls after `RunProgram`, if `main` is given a program. -/
theorem prepare_spec {sys : Libbpf} {file : String → Option String} {o : Options}
    (hcontent : (o.content file).isSome) {error : Option String} {l : Program} {calls : List XdpCall}
    (h : o.xdpBinary.elim (none, { progName := mainProgName, progInterface := o.iface }, [])
      (Program.runProgram sys { progName := mainProgName, progInterface := o.iface }) =
        (error, l, calls)) :
    attachedAfter calls = sys.attachedTo mainProgName l.index ∧
      (l.index = none ∨ l.index = o.xdpBinary.map fun _ => sys.ifNametoindex o.iface) ∧
      calls.any XdpCall.detachFails = false ∧
      if error.isSome then objectAfter calls = some false ∧ (l.object ↔ o.Botched sys file)
      else ¬o.Botched sys file ∧ l.index = o.xdpBinary.map (fun _ => sys.ifNametoindex o.iface) ∧
        l.object = o.xdpBinary.isSome ∧ objectAfter calls = some o.xdpBinary.isSome ∧
        l.isValidBpfState = o.xdpBinary.isSome := by
  cases hbinary : o.xdpBinary with
  | none =>
    rw [hbinary] at h
    obtain ⟨rfl, rfl, rfl⟩ := by simpa only [Option.elim_none, Prod.mk.injEq] using h
    refine ⟨(ite_self none).symm, .inl rfl, rfl, ?_, rfl, rfl, rfl, rfl⟩
    rintro ⟨-, binName, hb, -⟩
    cases hbinary.symm.trans hb
  | some binName =>
    rw [hbinary, Option.elim_some] at h
    have hbotched : o.Botched sys file ↔ sys.openFile binName ∧ sys.Fails mainProgName o.iface := by
      constructor
      · rintro ⟨-, binName', hb, hfails⟩
        obtain rfl := Option.some.inj (hbinary.symm.trans hb)
        exact hfails
      · exact fun hfails => ⟨hcontent, binName, hbinary, hfails⟩
    have hran := @runProgram_spec sys
      { progName := mainProgName, progInterface := o.iface } rfl binName
    have hcalls := @detachFails_runProgram sys
      { progName := mainProgName, progInterface := o.iface } binName
    rw [h] at hran hcalls
    rw [hbotched]
    cases hran with
    | unopened hopen hobject hindex =>
      refine ⟨?_, .inl hindex, hcalls, rfl, ?_⟩
      · rw [hindex, Libbpf.attachedTo, ite_self]
        rfl
      rw [hobject, hopen]
      simp
    | failed hopen hfails hobject hindex hattached hafter =>
      exact ⟨hattached, hindex, hcalls, hafter, iff_of_true hobject ⟨hopen, hfails⟩⟩
    | running hopen hfails hobject hindex hattached hafter hvalid =>
      exact ⟨hattached, .inr hindex, hcalls, fun h => hfails h.2, hindex, hobject, hafter, hvalid⟩

/-- How `main` ends. Whatever libbpf, the kernel, the file and the parser answer: if it returns,
    nothing is attached unless a detach has failed, and the object has been closed once, if it was
    opened, exactly if `RunProgram` has not failed with the object open; if an exception leaves it,
    the program it was given stays attached and open; and if it gets to its servers, the
    configuration is that of the file, and the maps are there exactly if it was given a program.
    The program is attached only if the object has one of its name. -/
theorem launch_ends (sys : Libbpf) (file : String → Option String)
    (read : String → Except String Json) (o : Options) :
    let r := launch sys file read o
    let running := sys.attachedTo mainProgName (o.xdpBinary.map fun _ => sys.ifNametoindex o.iface)
    (∀ code, r.2 = .returned code →
      (attachedAfter r.1 = if r.1.any XdpCall.detachFails then running else none) ∧
        (objectAfter r.1 = some false ↔ ¬o.Botched sys file)) ∧
    (∀ e, r.2 = .left e →
      attachedAfter r.1 = running ∧ objectAfter r.1 = some o.xdpBinary.isSome) ∧
    ∀ config l, r.2 = .serving config l →
      (∃ content, o.content file = some content ∧ startConfig read (loadFile content) = some config) ∧
      attachedAfter r.1 = running ∧ objectAfter r.1 = some o.xdpBinary.isSome ∧
      l.isValidBpfState = o.xdpBinary.isSome := by
  intro r running
  have hr : r = launch sys file read o := rfl
  rw [launch] at hr
  cases hcontent : o.content file with
  | none =>
    rw [hcontent] at hr
    rw [hr]
    refine ⟨fun code _ => ⟨rfl, iff_of_true rfl ?_⟩, by simp, by simp⟩
    rintro ⟨hsome, -⟩
    rw [hcontent] at hsome
    cases hsome
  | some content =>
    rw [hcontent] at hr
    dsimp only at hr
    generalize hrun : o.xdpBinary.elim _ _ = x at hr
    obtain ⟨error, l, calls⟩ := x
    obtain ⟨hattached, hplace, hcalls, hprepared⟩ := prepare_spec (by rw [hcontent]; rfl) hrun
    obtain ⟨hdetached, hclosed⟩ := destroy_spec hattached hplace hcalls
    cases error with
    | some e =>
      -- `RunProgram` has closed what it opened; the destructor does not know
      obtain ⟨hafter, hobject⟩ := hprepared
      rw [hr]
      refine ⟨fun code _ => ⟨hdetached, ?_⟩, by simp, by simp⟩
      rw [hclosed, hafter, ← hobject]
      cases l.object <;> simp [XdpCall.object]
    | none =>
      obtain ⟨hbotched, hindex, hobject, hafter, hvalid⟩ := hprepared
      have hreturned : attachedAfter (calls ++ l.destroy sys) =
            (if (calls ++ l.destroy sys).any XdpCall.detachFails then running else none) ∧
          (objectAfter (calls ++ l.destroy sys) = some false ↔ ¬o.Botched sys file) := by
        refine ⟨hdetached, iff_of_true ?_ hbotched⟩
        rw [hclosed, hafter, hobject]
        cases o.xdpBinary.isSome <;> rfl
      have hrunning : attachedAfter calls = running ∧ objectAfter calls = some o.xdpBinary.isSome :=
        ⟨hattached.trans (congrArg (sys.attachedTo mainProgName) hindex), hafter⟩
      dsimp only at hr
      split_ifs at hr with hdata
      · rw [hr]
        exact ⟨fun _ _ => hreturned, by simp, by simp⟩
      · split at hr
        · rw [hr]
          exact ⟨fun _ _ => hreturned, by simp, by simp⟩
        · -- no destructor is called
          rw [hr]
          exact ⟨by simp, fun _ _ => hrunning, by simp⟩
        · rename_i config hparse
          rcases hvalidate : config.validate with ⟨config', _ | e⟩
          · rw [hvalidate] at hr
            rw [hr]
            refine ⟨by simp, by simp, fun config l' hend => ?_⟩
            obtain ⟨rfl, rfl⟩ := End.serving.inj hend
            refine ⟨⟨content, rfl, ?_⟩, hrunning.1, hrunning.2, hvalid⟩
            rw [startConfig, if_neg hdata, hparse]
            dsimp only
            rw [hvalidate]
          · rw [hvalidate] at hr
            rw [hr]
            exact ⟨fun _ _ => hreturned, by simp, by simp⟩

end L4Balancer
