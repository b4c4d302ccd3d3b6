import DoorSecurity.Eeprom.Slots

/-!
# The access list's functions (`bsp/rc522_function.c`)

The code as it computes: IDs are compared as the strings `sprintf` makes of them,
loops run over the count read at entry, and every EEPROM access is a
transaction of its own. Console and LCD output is left out, but for the IDs that
`LIST_ALL_TAGS` prints.
-/

namespace DoorSecurity
set_option autoImplicit false
open Bus

/-- One digit of `%02X`. -/
def hexDigit (n : Nat) : Char := if n < 10 then Char.ofNat (48 + n) else Char.ofNat (55 + n)

/-- `%02X` of a byte. -/
def hexByte (b : UInt8) : List Char := [hexDigit (b.toNat / 16), hexDigit (b.toNat % 16)]

/-- `sprintf(..,"%02X%02X%02X%02X",..)`: the string an ID is compared as. -/
def idString (id : TagId) : List Char := hexByte (id 0) ++ hexByte (id 1) ++ hexByte (id 2) ++ hexByte (id 3)

theorem hexDigit_injective : ∀ i j : Fin 16, hexDigit i.val = hexDigit j.val → i = j := by decide

theorem hexByte_injective {a b : UInt8} (h : hexByte a = hexByte b) : a = b := by
  simp only [hexByte, List.cons.injEq, and_true] at h
  have small : ∀ c : UInt8, c.toNat < 256 := fun c => c.toNat_lt
  have high := hexDigit_injective ⟨a.toNat / 16, by have := small a; omega⟩ ⟨b.toNat / 16, by have := small b; omega⟩ h.1
  have low := hexDigit_injective ⟨a.toNat % 16, by omega⟩ ⟨b.toNat % 16, by omega⟩ h.2
  simp only [Fin.mk.injEq] at high low
  exact UInt8.toNat_inj.mp (by omega)

/-- `strcmp` of two ID strings decides equality of the IDs. -/
theorem idString_inj {a b : TagId} : idString a = idString b ↔ a = b := by
  constructor
  · intro h
    have len : ∀ c : UInt8, (hexByte c).length = 2 := fun _ => rfl
    have append := fun {x y : UInt8} {s t : List Char} (e : s ++ hexByte x = t ++ hexByte y) =>
      List.append_inj' e (by rw [len, len])
    obtain ⟨h, h3⟩ := append h
    obtain ⟨h, h2⟩ := append h
    obtain ⟨h0, h1⟩ := append h
    funext i
    fin_cases i
    · exact hexByte_injective h0
    · exact hexByte_injective h1
    · exact hexByte_injective h2
    · exact hexByte_injective h3
  · rintro rfl; rfl

/-- The four reads of `sprintf(stored_tag_id,..)` for tag `j`. C leaves their order open; here
they run from left to right. -/
def readStoredTagId (j : Nat) : Code (List Char) := do
  let b0 ← at24cxxReadOneByte (uint16 (tagStoredBaseAdd j + 0))
  let b1 ← at24cxxReadOneByte (uint16 (tagStoredBaseAdd j + 1))
  let b2 ← at24cxxReadOneByte (uint16 (tagStoredBaseAdd j + 2))
  let b3 ← at24cxxReadOneByte (uint16 (tagStoredBaseAdd j + 3))
  return idString ![b0, b1, b2, b3]

/-- The four addresses inside the part. -/
theorem readStoredTagId_eq {j : Nat} (first : 1 ≤ j) (last : j ≤ 64) : readStoredTagId j = do
    let b0 ← at24cxxReadOneByte (4 * j - 3)
    let b1 ← at24cxxReadOneByte (4 * j - 3 + 1)
    let b2 ← at24cxxReadOneByte (4 * j - 3 + 2)
    let b3 ← at24cxxReadOneByte (4 * j - 3 + 3)
    return idString ![b0, b1, b2, b3] := by
  have addr := fun (i : Nat) (h : i < 4) => uint16_slot first last h
  unfold readStoredTagId
  rw [show uint16 (tagStoredBaseAdd j + 0) = 4 * j - 3 from addr 0 (by omega),
    show uint16 (tagStoredBaseAdd j + 1) = 4 * j - 3 + 1 from addr 1 (by omega),
    show uint16 (tagStoredBaseAdd j + 2) = 4 * j - 3 + 2 from addr 2 (by omega),
    show uint16 (tagStoredBaseAdd j + 3) = 4 * j - 3 + 3 from addr 3 (by omega)]

/-- `for(i=0;i<4;i++) AT24CXX_WriteOneByte(Tag_Stored_Base_Add(cnt)+i,..)`. -/
def writeTagBytes (cnt : Nat) (bytes : TagId) : Code Unit :=
  Prog.forLoop 0 4 () fun i _ => at24cxxWriteOneByte (uint16 (tagStoredBaseAdd cnt + i)) (bytes (Fin.ofNat 4 i))

/-- `AT24CXX_Init`: reset the count byte when its mark is missing. -/
def at24cxxInit : Code Unit := do
  let b ← at24cxxReadOneByte modCntTagAdd
  if b &&& ifModified ≠ 0x80 then at24cxxWriteOneByte modCntTagAdd modified else pure ()

/-- The `for(j=1;j<=cnt;j++)` of `tag_match`, from tag `j` with `n` tags to go. -/
def tagMatchFrom (targetTagId : List Char) : Nat → Nat → Code UInt8
  | _, 0 => return 0
  | j, n + 1 => do
    let storedTagId ← readStoredTagId j
    if storedTagId = targetTagId then return 1 else tagMatchFrom targetTagId (j + 1) n

/-- `tag_match`. -/
def tagMatch (tagId : TagId) : Code UInt8 := do
  let b ← at24cxxReadOneByte modCntTagAdd
  if countOf b = 0 then return 0 else tagMatchFrom (idString tagId) 1 (countOf b)

/-- `regist_tag`: past 56 tags the count restarts at zero. -/
def registTag (tagId : TagId) : Code UInt8 := do
  let b ← at24cxxReadOneByte modCntTagAdd
  let cnt := if countOf b + 1 > 56 then 0 else countOf b + 1
  at24cxxWriteOneByte modCntTagAdd (countByte cnt)
  writeTagBytes cnt tagId
  return 1

/-- The search loop of `delete_registered_tag` at tag `j`: a matching slot is zeroed, `k`
counts down and `z` keeps the position. -/
def deleteSearchRound (targetTagId : List Char) (j : Nat) (kz : Nat × Nat) : Code (Nat × Nat) := do
  let storedTagId ← readStoredTagId j
  if storedTagId = targetTagId then do
    writeTagBytes j 0
    return (kz.1 - 1, j)
  else return kz

/-- The search loop. `z` is uninitialised before the first match and not used without one. -/
def deleteSearch (targetTagId : List Char) (cnt : Nat) : Code (Nat × Nat) :=
  Prog.forLoop 1 cnt (cnt, 0) (deleteSearchRound targetTagId)

/-- `tem = AT24CXX_ReadOneByte(..+y); AT24CXX_WriteOneByte(..+y,tem)` between two slots. -/
def copyTagByte (source dest y : Nat) : Code Unit := do
  let tem ← at24cxxReadOneByte (uint16 (tagStoredBaseAdd source + y))
  at24cxxWriteOneByte (uint16 (tagStoredBaseAdd dest + y)) tem

/-- The compaction loop: `x` runs from 0 to `cnt - z`, so the last round copies the slot
past the end. -/
def deleteCompact (cnt z : Nat) : Code Unit :=
  Prog.forLoop 0 (cnt - z + 1) () fun x _ => Prog.forLoop 0 4 () fun y _ => copyTagByte (z + x + 1) (z + x) y

/-- `delete_registered_tag`. -/
def deleteRegisteredTag (tagId : TagId) : Code UInt8 := do
  let b ← at24cxxReadOneByte modCntTagAdd
  let cnt := countOf b
  if cnt = 0 then return 0 else do
    let (k, z) ← deleteSearch (idString tagId) cnt
    if k = cnt then return 0 else do
      deleteCompact cnt z
      at24cxxWriteOneByte modCntTagAdd (countByte k)
      return 1

/-- `DEL_ALL_TAG`. -/
def delAllTag : Code UInt8 := do
  let b ← at24cxxReadOneByte modCntTagAdd
  if countOf b = 0 then return 0 else do
    Prog.forLoop 1 (countOf b) () fun j _ => writeTagBytes j 0
    at24cxxWriteOneByte modCntTagAdd (countByte 0)
    return 1

/-- `LIST_ALL_TAGS`, with the IDs it prints. -/
def listAllTags : Code (UInt8 × List (List Char)) := do
  let b ← at24cxxReadOneByte modCntTagAdd
  if countOf b = 0 then return (0, []) else do
    let printed ← Prog.forLoop 1 (countOf b) [] fun j printed => do
      let storedTagId ← readStoredTagId j
      return printed ++ [storedTagId]
    return (1, printed)

/-- What `Register_New_Tag` does with a card: `regist_tag` only when `tag_match` has not
returned 1. -/
def registerCard (tagId : TagId) : Code Unit := do
  let r ← tagMatch tagId
  if r = 1 then return () else do
    let _ ← registTag tagId
    return ()

end DoorSecurity
