import Mathlib.Data.List.Chain
import Mathlib.Data.List.Nodup
import Mathlib.Logic.Function.Basic

/-!
# The task chain of a buffer

`task_order_attach`, `task_chain_clean`, `task_chain_empty` and the queries for the neighbours of a task.
The chain is kept twice: as the list of its items and as two maps from a type to the type attached
before and after it.
-/
namespace MediaModules.Tasks

/-- `enum task_type_e`. -/
inductive TaskType
  | dec
  | vpp
  | ge2d
  | avbcd
  | v4lSink
  | max
deriving DecidableEq, Repr

/-- `iname`. -/
def iname : List (TaskType × String) :=
  [(.dec, "dec"), (.vpp, "vpp"), (.v4lSink, "v4l-sink"), (.ge2d, "ge2d"), (.avbcd, "avbcd"),
    (.max, "unknown")]

/-- `type_to_name`: the last entry of the type. -/
def typeToName (type : TaskType) : String :=
  iname.foldl (fun name e => if type = e.1 then e.2 else name) "unknown"

/-- `name_to_type`. The names are compared as pointers into the table. -/
def nameToType (name : String) : TaskType :=
  iname.foldl (fun type e => if name = e.2 then e.1 else type) .max

/-- `struct task_item_s`. `type` is `ops->type`, `ref` the count of its `kref`. -/
structure TaskItem where
  type : TaskType
  name : String
  ref : Nat
deriving DecidableEq, Repr

/-- `struct task_chain_s`, `map0` and `map1` are the rows of `map`. -/
structure TaskChain where
  listItem : List TaskItem
  curType : TaskType
  map0 : TaskType → TaskType
  map1 : TaskType → TaskType

/-- `task_chain_init`. The memory comes zeroed, 0 is `TASK_TYPE_DEC`. -/
def taskChainInit : TaskChain := ⟨[], .max, fun _ => .dec, fun _ => .dec⟩

/-- `task_order_attach`. -/
def taskOrderAttach (task : TaskChain) (type : TaskType) : TaskChain :=
  let task := { task with map0 := Function.update task.map0 type task.curType }
  let task := { task with map1 := Function.update task.map1 task.curType type }
  { task with curType := type, listItem := ⟨type, typeToName type, 1⟩ :: task.listItem }

/-- `kref_put` of an item: the last reference takes it off the list. -/
def TaskItem.put (item : TaskItem) : Option TaskItem :=
  if item.ref = 1 then none else some { item with ref := item.ref - 1 }

/-- Change or unlink the first item of a type. -/
def changeItem (f : TaskItem → Option TaskItem) (type : TaskType) : List TaskItem → List TaskItem
  | [] => []
  | item :: items =>
    if item.type = type then (f item).toList ++ items else item :: changeItem f type items

/-- `task_item_get`: the first item of the type, with one more reference. -/
def taskItemGet (task : TaskChain) (type : TaskType) : Option TaskItem × TaskChain :=
  (task.listItem.find? (·.type = type),
    { task with listItem :=
        changeItem (fun item => some { item with ref := item.ref + 1 }) type task.listItem })

/-- `task_item_put` of the item that `taskItemGet` found. -/
def taskItemPut (task : TaskChain) (type : TaskType) : TaskChain :=
  { task with listItem := changeItem TaskItem.put type task.listItem }

/-- The type of the item that a row of `map` has for `type`. -/
def getUser (map : TaskType → TaskType) (task : TaskChain) (type : TaskType) : TaskType × TaskChain :=
  match taskItemGet task type with
  | (some _, task) =>
    match taskItemGet task (map type) with
    | (some item2, task) => (nameToType item2.name, taskItemPut (taskItemPut task (map type)) type)
    | (none, task) => (.max, taskItemPut task type)
  | (none, task) => (.max, task)

/-- `task_buffer_get_pre_user`. -/
def getPreUser (task : TaskChain) (type : TaskType) : TaskType × TaskChain :=
  getUser task.map1 task type

/-- `task_buffer_get_next_user`. -/
def getNextUser (task : TaskChain) (type : TaskType) : TaskType × TaskChain :=
  getUser task.map0 task type

/-- `task_chain_empty`. -/
def taskChainEmpty (task : TaskChain) : Bool := task.curType = .max

/-- `task_chain_clean`. -/
def taskChainClean (task : TaskChain) : TaskChain :=
  { task with listItem := task.listItem.filterMap TaskItem.put }

inductive Op
  | attach (type : TaskType)
  | clean
  | preUser (type : TaskType)
  | nextUser (type : TaskType)
deriving DecidableEq, Repr

def step (task : TaskChain) : Op → TaskChain
  | .attach type => taskOrderAttach task type
  | .clean => taskChainClean task
  | .preUser type => (getPreUser task type).2
  | .nextUser type => (getNextUser task type).2

/-! ## References -/

/-- The types of the items, the one attached last first. -/
def TaskChain.types (task : TaskChain) : List TaskType := task.listItem.map (·.type)

/-- The items are alive and have the names of their types. -/
def Named (items : List TaskItem) : Prop :=
  ∀ item ∈ items, 0 < item.ref ∧ item.name = typeToName item.type

/-- Between the calls an item is referenced by the list alone. -/
def Settled (task : TaskChain) : Prop :=
  Named task.listItem ∧ ∀ item ∈ task.listItem, item.ref = 1

theorem nameToType_typeToName (type : TaskType) : nameToType (typeToName type) = type := by
  cases type <;> decide

/-- One more reference to the first item of a type. -/
def getRef : TaskType → List TaskItem → List TaskItem :=
  changeItem fun item => some { item with ref := item.ref + 1 }

theorem getRef_cons (type : TaskType) (item : TaskItem) (items : List TaskItem) :
    getRef type (item :: items) =
      if item.type = type then { item with ref := item.ref + 1 } :: items
      else item :: getRef type items := rfl

theorem types_getRef (type : TaskType) (items : List TaskItem) :
    (getRef type items).map (·.type) = items.map (·.type) := by
  induction items with
  | nil => rfl
  | cons item items ih =>
    rw [getRef_cons]
    split
    · rfl
    · rw [List.map_cons, List.map_cons, ih]

theorem Named.getRef {items : List TaskItem} (h : Named items) (type : TaskType) :
    Named (getRef type items) := by
  induction items with
  | nil => exact h
  | cons item items ih =>
    have hhead := h item List.mem_cons_self
    have htail : Named items := fun i hi => h i (List.mem_cons_of_mem item hi)
    rw [getRef_cons]
    split
    · intro i hi
      obtain rfl | hi := List.mem_cons.mp hi
      · exact ⟨Nat.succ_pos _, hhead.2⟩
      · exact htail i hi
    · intro i hi
      obtain rfl | hi := List.mem_cons.mp hi
      · exact hhead
      · exact ih htail i hi

/-- Putting back what was got leaves the list as it was. -/
theorem put_getRef {items : List TaskItem} (h : Named items) (type : TaskType) :
    changeItem TaskItem.put type (getRef type items) = items := by
  induction items with
  | nil => rfl
  | cons item items ih =>
    have hpos := (h item List.mem_cons_self).1
    rw [getRef_cons]
    by_cases htype : item.type = type
    · have hput : TaskItem.put { item with ref := item.ref + 1 } = some item := by
        rw [TaskItem.put, if_neg (by simp only; omega)]
        rfl
      rw [if_pos htype, changeItem, if_pos htype, hput]
      rfl
    · rw [if_neg htype, changeItem, if_neg htype, ih fun i hi => h i (List.mem_cons_of_mem item hi)]

theorem find?_type {items : List TaskItem} (h : Named items) (type : TaskType) :
    (type ∈ items.map (·.type) ∧ ∃ item, items.find? (·.type = type) = some item ∧
      nameToType item.name = type) ∨
    (type ∉ items.map (·.type) ∧ items.find? (·.type = type) = none) := by
  cases hfind : items.find? (·.type = type) with
  | none =>
    refine .inr ⟨fun hmem => ?_, rfl⟩
    obtain ⟨item, hitem, htype⟩ := List.mem_map.mp hmem
    simpa [htype] using List.find?_eq_none.mp hfind item hitem
  | some item =>
    have hitem := List.mem_of_find?_eq_some hfind
    have htype : item.type = type := by simpa using List.find?_some hfind
    refine .inl ⟨List.mem_map.mpr ⟨item, hitem, htype⟩, item, rfl, ?_⟩
    rw [(h item hitem).2, nameToType_typeToName, htype]

theorem getRef_of_not_mem {items : List TaskItem} {type : TaskType}
    (h : type ∉ items.map (·.type)) : getRef type items = items := by
  induction items with
  | nil => rfl
  | cons item items ih =>
    rw [List.map_cons, List.mem_cons, not_or] at h
    rw [getRef_cons, if_neg (Ne.symm h.1), ih h.2]

/-- A query answers from the types in the list and from the row of the map, and leaves the chain as it
was. -/
theorem getUser_eq {task : TaskChain} (h : Named task.listItem) (map : TaskType → TaskType)
    (type : TaskType) : getUser map task type =
      (if type ∈ task.types ∧ map type ∈ task.types then map type else .max, task) := by
  have hget (task : TaskChain) (type : TaskType) : taskItemGet task type =
      (task.listItem.find? (·.type = type),
        { task with listItem := getRef type task.listItem }) := rfl
  obtain ⟨hmem, item, hfind, -⟩ | ⟨hmem, hfind⟩ := find?_type h type
  · have hnext := find?_type (h.getRef type) (map type)
    rw [types_getRef] at hnext
    simp only [getUser, hget, hfind, taskItemPut]
    obtain ⟨hmem2, item2, hfind2, hname⟩ | ⟨hmem2, hfind2⟩ := hnext
    · rw [if_pos ⟨hmem, hmem2⟩, hfind2]
      simp only [hname, put_getRef (h.getRef type), put_getRef h]
    · rw [if_neg fun h => hmem2 h.2, hfind2]
      have hsame : getRef (map type) (getRef type task.listItem) = getRef type task.listItem :=
        getRef_of_not_mem (by rwa [types_getRef])
      simp only [hsame, put_getRef h]
  · simp only [getUser, hget, hfind, getRef_of_not_mem hmem]
    rw [if_neg fun h => hmem h.1]

theorem getPreUser_eq {task : TaskChain} (h : Named task.listItem) (type : TaskType) :
    (getPreUser task type).1 =
      if type ∈ task.types ∧ task.map1 type ∈ task.types then task.map1 type else .max := by
  rw [getPreUser, getUser_eq h]

theorem getNextUser_eq {task : TaskChain} (h : Named task.listItem) (type : TaskType) :
    (getNextUser task type).1 =
      if type ∈ task.types ∧ task.map0 type ∈ task.types then task.map0 type else .max := by
  rw [getNextUser, getUser_eq h]

/-! ## Runs -/

theorem settled_init : Settled taskChainInit :=
  ⟨fun _ h => absurd h List.not_mem_nil, fun _ h => absurd h List.not_mem_nil⟩

theorem Settled.attach {task : TaskChain} (h : Settled task) (type : TaskType) :
    Settled (taskOrderAttach task type) := by
  refine ⟨fun item hitem => ?_, fun item hitem => ?_⟩
  · obtain rfl | hitem := List.mem_cons.mp hitem
    · exact ⟨Nat.one_pos, rfl⟩
    · exact h.1 item hitem
  · obtain rfl | hitem := List.mem_cons.mp hitem
    · rfl
    · exact h.2 item hitem

/-- Cleaning drops the only reference of every item. -/
theorem Settled.clean_nil {task : TaskChain} (h : Settled task) :
    (taskChainClean task).listItem = [] := by
  refine List.filterMap_eq_nil_iff.mpr fun item hitem => ?_
  rw [TaskItem.put, if_pos (h.2 item hitem)]

theorem settled_of_nil {task : TaskChain} (h : task.listItem = []) : Settled task := by
  rw [Settled, Named, h]
  exact ⟨fun _ hi => absurd hi List.not_mem_nil, fun _ hi => absurd hi List.not_mem_nil⟩

theorem Settled.step {task : TaskChain} (h : Settled task) (op : Op) : Settled (step task op) := by
  cases op with
  | attach type => exact h.attach type
  | clean => exact settled_of_nil h.clean_nil
  | preUser type => rwa [Tasks.step, getPreUser, getUser_eq h.1]
  | nextUser type => rwa [Tasks.step, getNextUser, getUser_eq h.1]

theorem settled_run (ops : List Op) : Settled (ops.foldl step taskChainInit) :=
  List.foldlRecOn ops step settled_init fun _ h op _ => h.step op

/-! ## The chain that is attached -/

/-- Attach items of the types in this order. -/
def attachAll (task : TaskChain) (ts : List TaskType) : TaskChain := ts.foldl taskOrderAttach task

variable {task : TaskChain} {ts : List TaskType} {t : TaskType}

theorem attachAll_cons (task : TaskChain) (t : TaskType) (ts : List TaskType) :
    attachAll task (t :: ts) = attachAll (taskOrderAttach task t) ts := rfl

theorem Settled.attachAll (h : Settled task) (ts : List TaskType) : Settled (attachAll task ts) :=
  List.foldlRecOn ts taskOrderAttach h fun _ h t _ => h.attach t

theorem types_attachAll (task : TaskChain) (ts : List TaskType) :
    (attachAll task ts).types = ts.reverse ++ task.types := by
  induction ts generalizing task with
  | nil => rfl
  | cons t ts ih =>
    rw [attachAll_cons, ih, List.reverse_cons, List.append_assoc]
    rfl

theorem curType_attachAll (task : TaskChain) (ts : List TaskType) :
    (attachAll task ts).curType = ts.getLast?.getD task.curType := by
  induction ts generalizing task with
  | nil => rfl
  | cons t ts ih =>
    rw [attachAll_cons, ih, List.getLast?_cons]
    rfl

/-- The first row keeps the types that are not attached. -/
theorem map0_attachAll (h : t ∉ ts) : (attachAll task ts).map0 t = task.map0 t := by
  induction ts generalizing task with
  | nil => rfl
  | cons u ts ih =>
    rw [List.mem_cons, not_or] at h
    rw [attachAll_cons, ih h.2]
    exact Function.update_of_ne h.1 _ _

/-- The second row keeps the types that nothing is attached to. -/
theorem map1_attachAll (h : t ∉ (task.curType :: ts).dropLast) :
    (attachAll task ts).map1 t = task.map1 t := by
  induction ts generalizing task with
  | nil => rfl
  | cons u ts ih =>
    rw [List.dropLast_cons_cons, List.mem_cons, not_or] at h
    rw [attachAll_cons, ih h.2]
    exact Function.update_of_ne h.1 _ _

/-- Of different types each one is linked with the one before. -/
theorem linked_attachAll (h : (task.curType :: ts).Nodup) :
    (task.curType :: ts).IsChain fun a b =>
      (attachAll task ts).map0 b = a ∧ (attachAll task ts).map1 a = b := by
  induction ts generalizing task with
  | nil => exact List.isChain_singleton _
  | cons u ts ih =>
    obtain ⟨hcur, hrest⟩ := List.nodup_cons.mp h
    rw [attachAll_cons]
    refine List.isChain_cons_cons.mpr ⟨⟨?_, ?_⟩, ih hrest⟩
    · rw [map0_attachAll (List.nodup_cons.mp hrest).1]
      exact Function.update_self _ _ _
    · have hkeep : task.curType ∉ ((taskOrderAttach task u).curType :: ts).dropLast :=
        fun hmem => hcur (List.dropLast_subset _ hmem)
      rw [map1_attachAll hkeep]
      exact Function.update_self _ _ _

/-- After the types are attached every query names the neighbour in their order, and the chain counts as
empty exactly when it has no item. -/
structure Linked (task : TaskChain) (ts : List TaskType) : Prop where
  next : ∀ i (h : i + 1 < ts.length), (getNextUser (attachAll task ts) ts[i + 1]).1 = ts[i]
  pre : ∀ i (h : i + 1 < ts.length), (getPreUser (attachAll task ts) ts[i]).1 = ts[i + 1]
  first : ∀ t ∈ ts.head?, (getNextUser (attachAll task ts) t).1 = .max
  last : ∀ t ∈ ts.getLast?, (getPreUser (attachAll task ts) t).1 = .max
  empty : taskChainEmpty (attachAll task ts) = true ↔ (attachAll task ts).listItem = []

/-- What the chain still holds of earlier items does not name one of the types: neither the type attached
last, nor the old entry of the type that will be the last one. -/
structure Unnamed (task : TaskChain) (ts : List TaskType) : Prop where
  cur : task.curType ∉ ts
  behind : ∀ t ∈ ts.getLast?, task.map1 t ∉ ts
  none : ts = [] → task.curType = .max

theorem not_mem_dropLast {l : List TaskType} (h : l.Nodup) (ht : l.getLast? = some t) :
    t ∉ l.dropLast := by
  obtain ⟨ys, rfl⟩ := List.getLast?_eq_some_iff.mp ht
  rw [List.dropLast_concat]
  exact fun hmem => (List.nodup_append.mp h).2.2 t hmem t List.mem_cons_self rfl

section Empty

variable (hnil : task.listItem = []) (hn : ts.Nodup) (hmax : .max ∉ ts)
include hnil

theorem mem_types_attachAll : t ∈ (attachAll task ts).types ↔ t ∈ ts := by
  rw [types_attachAll, TaskChain.types, hnil, List.map_nil, List.append_nil, List.mem_reverse]

theorem nextUser_attachAll (ht : t ∈ ts) : (getNextUser (attachAll task ts) t).1 =
    if (attachAll task ts).map0 t ∈ ts then (attachAll task ts).map0 t else .max := by
  rw [getNextUser_eq ((settled_of_nil hnil).attachAll ts).1]
  simp only [mem_types_attachAll hnil, ht, true_and]

theorem preUser_attachAll (ht : t ∈ ts) : (getPreUser (attachAll task ts) t).1 =
    if (attachAll task ts).map1 t ∈ ts then (attachAll task ts).map1 t else .max := by
  rw [getPreUser_eq ((settled_of_nil hnil).attachAll ts).1]
  simp only [mem_types_attachAll hnil, ht, true_and]

theorem listItem_attachAll : (attachAll task ts).listItem = [] ↔ ts = [] := by
  have h := types_attachAll task ts
  rw [TaskChain.types, TaskChain.types, hnil, List.map_nil, List.append_nil] at h
  constructor
  · intro hd
    rw [hd, List.map_nil, eq_comm, List.reverse_eq_nil_iff] at h
    exact h
  · rintro rfl
    exact hnil

include hn hmax

theorem Linked.unnamed (h : Linked task ts) : Unnamed task ts := by
  have hcur : task.curType ∉ ts := fun hmem => by
    obtain ⟨t, us, rfl⟩ := List.exists_cons_of_ne_nil (List.ne_nil_of_mem hmem)
    have hmap : (attachAll task (t :: us)).map0 t = task.curType := by
      rw [attachAll_cons, map0_attachAll (List.nodup_cons.mp hn).1]
      exact Function.update_self _ _ _
    have hfirst := h.first t rfl
    rw [nextUser_attachAll hnil List.mem_cons_self, hmap, if_pos hmem] at hfirst
    exact hmax (hfirst ▸ hmem)
  refine ⟨hcur, fun t ht hmem => ?_, fun hts => ?_⟩
  · have hkeep : t ∉ (task.curType :: ts).dropLast := by
      refine not_mem_dropLast (List.nodup_cons.mpr ⟨hcur, hn⟩) ?_
      rw [List.getLast?_cons, ht]
      rfl
    have hlast := h.last t ht
    rw [preUser_attachAll hnil (List.mem_of_getLast? ht), map1_attachAll hkeep, if_pos hmem] at hlast
    exact hmax (hlast ▸ hmem)
  · subst hts
    have hempty : taskChainEmpty task = true := h.empty.mpr hnil
    simpa [taskChainEmpty] using hempty

theorem Unnamed.linked (h : Unnamed task ts) : Linked task ts := by
  have hlinks := linked_attachAll (List.nodup_cons.mpr ⟨h.cur, hn⟩)
  have hpair (i : Nat) (hi : i + 1 < ts.length) :
      (attachAll task ts).map0 ts[i + 1] = ts[i] ∧ (attachAll task ts).map1 ts[i] = ts[i + 1] :=
    hlinks.tail.getElem i hi
  refine ⟨fun i hi => ?_, fun i hi => ?_, fun t ht => ?_, fun t ht => ?_, ?_⟩
  · rw [nextUser_attachAll hnil (List.getElem_mem hi), (hpair i hi).1, if_pos (List.getElem_mem _)]
  · rw [preUser_attachAll hnil (List.getElem_mem _), (hpair i hi).2, if_pos (List.getElem_mem hi)]
  · obtain ⟨us, rfl⟩ := List.head?_eq_some_iff.mp ht
    have hmap := (List.isChain_cons_cons.mp hlinks).1.1
    rw [nextUser_attachAll hnil List.mem_cons_self, hmap, if_neg h.cur]
  · have hkeep : t ∉ (task.curType :: ts).dropLast := by
      refine not_mem_dropLast (List.nodup_cons.mpr ⟨h.cur, hn⟩) ?_
      rw [List.getLast?_cons, ht]
      rfl
    rw [preUser_attachAll hnil (List.mem_of_getLast? ht), map1_attachAll hkeep,
      if_neg (h.behind t ht)]
  · rw [listItem_attachAll hnil, taskChainEmpty, decide_eq_true_iff, curType_attachAll]
    constructor
    · intro hlast
      cases hts : ts.getLast? with
      | none => exact List.getLast?_eq_none_iff.mp hts
      | some t =>
        rw [hts] at hlast
        exact absurd (hlast ▸ List.mem_of_getLast? hts) hmax
    · intro hts
      rw [h.none hts]
      subst hts
      rfl

end Empty

/-- A chain that is fresh or was just cleaned, whatever was done before, links the types exactly when
nothing it still holds names one of them. -/
theorem linked_iff (ops : List Op) (htask : task = taskChainInit ∨
      task = taskChainClean (ops.foldl step taskChainInit))
    (hn : ts.Nodup) (hmax : .max ∉ ts) : Linked task ts ↔ Unnamed task ts := by
  have hnil : task.listItem = [] := by
    obtain rfl | rfl := htask
    · rfl
    · exact (settled_run ops).clean_nil
  exact ⟨fun h => h.unnamed hnil hn hmax, fun h => h.linked hnil hn hmax⟩

/-- A chain without the decoder on a fresh chain. -/
theorem linked_iff_no_decoder : Linked taskChainInit [.v4lSink, .vpp] := by
  refine (linked_iff [] (.inl rfl) (by decide) (by decide)).mpr ⟨by decide, ?_, by decide⟩
  intro t _
  show TaskType.dec ∉ _
  decide

/-- On a fresh chain the decoder at the end is its own predecessor, and a cleaned chain is not empty. -/
theorem decoder_before_itself :
    (getPreUser (attachAll taskChainInit [.v4lSink, .dec]) .dec).1 = .dec ∧
      taskChainEmpty (taskChainClean (attachAll taskChainInit [.v4lSink, .dec])) = false ∧
      ¬ Linked taskChainInit [.v4lSink, .dec] := by
  have hpre : (getPreUser (attachAll taskChainInit [.v4lSink, .dec]) .dec).1 = .dec := by decide
  refine ⟨hpre, by decide, fun h => ?_⟩
  have hlast := h.last .dec rfl
  rw [hpre] at hlast
  cases hlast

end MediaModules.Tasks
