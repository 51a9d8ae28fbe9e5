import Mathlib.Data.List.Basic

/-! The pointer cell of `srcu.rs`. `SRcuData<T>` holds `crcu_data.data_ptr`; the
model adds the boxes the cell has allocated, by address, so that a pointer names
one `Box::new(data)`. A new box is published by `srcu_assign_pointer` before any
other thread can learn its address, so allocation and publication are one step
here, and the published pointer is always the newest box (`latest`).
The SRCU structure `ssp` is not state of the cell: the read-side sections it
tracks are the reader threads of `SRcuThreads`. -/

namespace HotUpgrade.SRcu

structure SRcuData (α : Type) where
  boxes : List α
  dataPtr : Nat
  latest : dataPtr + 1 = boxes.length

namespace SRcuData

variable {α β : Type} (c : SRcuData α) (data : α)

/-- `SRcuData::new`: `Box::into_raw(Box::new(data))` is box 0. -/
def new : SRcuData α := ⟨[data], 0, rfl⟩

/-- `srcu_defererence` (so spelled in the source): the published pointer. -/
def srcuDefererence : Nat := c.dataPtr

/-- `&*ptr` for a pointer the cell handed out. -/
def deref (p : Nat) : Option α := c.boxes[p]?

theorem dataPtr_lt : c.dataPtr < c.boxes.length := by have := c.latest; omega

/-- The value behind the published pointer. -/
def current : α := c.boxes.get ⟨c.dataPtr, c.dataPtr_lt⟩

/-- `Box::into_raw(Box::new(data))` followed by `srcu_assign_pointer` of it. -/
def assignBox : SRcuData α := ⟨c.boxes ++ [data], c.boxes.length, by simp⟩

/-- `read_directly(f)`: `f` on the published value, with no read-side section. -/
def readDirectly (f : α → β) : β := f c.current

@[simp] theorem new_dataPtr : (new data).dataPtr = 0 := rfl
@[simp] theorem new_boxes : (new data).boxes = [data] := rfl
@[simp] theorem srcuDefererence_eq : c.srcuDefererence = c.dataPtr := rfl
@[simp] theorem assignBox_dataPtr : (c.assignBox data).dataPtr = c.dataPtr + 1 := c.latest.symm
@[simp] theorem assignBox_boxes : (c.assignBox data).boxes = c.boxes ++ [data] := rfl

@[simp] theorem deref_dataPtr : c.deref c.dataPtr = some c.current :=
  List.getElem?_eq_getElem c.dataPtr_lt

@[simp] theorem current_assignBox : (c.assignBox data).current = data := by
  simp [current, assignBox]

theorem boxes_eq : c.boxes = c.boxes.take c.dataPtr ++ [c.current] := by
  conv_lhs => rw [← List.take_append_drop c.dataPtr c.boxes]
  rw [List.drop_eq_getElem_cons c.dataPtr_lt, List.drop_eq_nil_of_le (by have := c.latest; omega)]
  rfl

theorem deref_assignBox_of_le {p : Nat} (hp : p ≤ c.dataPtr) :
    (c.assignBox data).deref p = c.deref p :=
  List.getElem?_append_left (by have := c.latest; omega)

end SRcuData

end HotUpgrade.SRcu
