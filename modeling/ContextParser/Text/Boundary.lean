import ContextParser.Fault

/-!
# Byte boundaries of a text

Cursors and lengths count the bytes of a text's UTF-8 form, while a text is read here as its list
of characters. The two meet at the boundaries: a byte count is a boundary of a text when some
whole number of leading characters takes up exactly that many bytes.

`splitAt?` cuts a text at a boundary and answers `none` everywhere else. The statement that carries
the theory is `splitAt?_eq_some_iff`: a cut succeeds exactly when the text is its two parts laid end
to end and the first part has the requested length.
-/

set_option autoImplicit false

namespace ContextParser.Text

/-- The number of bytes that a list of characters takes up in UTF-8. -/
def byteLength : List Char → Nat
  | [] => 0
  | c :: cs => c.utf8Size + byteLength cs

/-- Cut a text after exactly `n` bytes. There is no cut past the end or inside a character. -/
def splitAt? : Nat → List Char → Option (List Char × List Char)
  | 0, cs => some ([], cs)
  | _ + 1, [] => none
  | n + 1, c :: cs =>
    if c.utf8Size ≤ n + 1 then
      (splitAt? (n + 1 - c.utf8Size) cs).map fun (front, back) => (c :: front, back)
    else
      none

/-- Whether a byte count falls between two characters, or at an end of the text. -/
def isBoundary (n : Nat) (cs : List Char) : Bool :=
  (splitAt? n cs).isSome

/-- Cut a text after exactly `n` bytes where there has to be a cut: none is a fault. -/
def cut (n : Nat) (cs : List Char) : Except Fault (List Char × List Char) :=
  match splitAt? n cs with
  | some parts => .ok parts
  | none => .error (.cutOffBoundary n)

/-- The part of a text between two byte counts, if both are boundaries in the right order. -/
def slice? (start stop : Nat) (cs : List Char) : Option (List Char) :=
  if start ≤ stop then
    (splitAt? start cs).bind fun (_, back) => (splitAt? (stop - start) back).map (·.1)
  else
    none

/-- The empty text takes up no bytes. -/
@[simp] theorem byteLength_nil : byteLength [] = 0 := rfl

/-- A text takes up the bytes of its first character and those of the others. -/
@[simp] theorem byteLength_cons (c : Char) (cs : List Char) :
    byteLength (c :: cs) = c.utf8Size + byteLength cs := rfl

/-- Two texts laid end to end take up the bytes of both. -/
@[simp] theorem byteLength_append (front back : List Char) :
    byteLength (front ++ back) = byteLength front + byteLength back := by
  induction front with
  | nil => simp
  | cons c cs ih => simp [ih, Nat.add_assoc]

/-- The order of the characters does not matter for the room they take up. -/
@[simp] theorem byteLength_reverse (cs : List Char) : byteLength cs.reverse = byteLength cs := by
  induction cs with
  | nil => rfl
  | cons c cs ih =>
    rw [List.reverse_cons, byteLength_append, ih, byteLength_cons, byteLength_cons, byteLength_nil]
    omega

/-- Every character takes up room, so only the empty text has no bytes. -/
theorem byteLength_eq_zero_iff {cs : List Char} : byteLength cs = 0 ↔ cs = [] := by
  cases cs with
  | nil => simp
  | cons c cs =>
    have := c.utf8Size_pos
    simp only [byteLength_cons, reduceCtorEq, iff_false]
    omega

/-- Every text can be cut at its start, which leaves all of it behind the cut. -/
@[simp] theorem splitAt?_zero (cs : List Char) : splitAt? 0 cs = some ([], cs) := by
  cases cs <;> rfl

/-- A cut undoes laying two parts end to end. -/
theorem splitAt?_append (front back : List Char) :
    splitAt? (byteLength front) (front ++ back) = some (front, back) := by
  induction front with
  | nil => simp
  | cons c cs ih =>
    have hpos := c.utf8Size_pos
    obtain ⟨n, hn⟩ : ∃ n, c.utf8Size + byteLength cs = n + 1 :=
      ⟨c.utf8Size + byteLength cs - 1, by omega⟩
    have hrest : n + 1 - c.utf8Size = byteLength cs := by omega
    rw [byteLength_cons, hn, List.cons_append, splitAt?, if_pos (by omega), hrest, ih]
    rfl

/-- A cut succeeds exactly when its parts make up the text and the first has the requested
length. -/
theorem splitAt?_eq_some_iff {n : Nat} {cs front back : List Char} :
    splitAt? n cs = some (front, back) ↔ cs = front ++ back ∧ byteLength front = n := by
  constructor
  · intro h
    fun_induction splitAt? n cs generalizing front back with
    | case1 cs =>
      obtain ⟨rfl, rfl⟩ : [] = front ∧ cs = back := by simpa using h
      simp
    | case2 => simp at h
    | case3 n c cs hfit ih =>
      obtain ⟨⟨front', back'⟩, hcut, heq⟩ := Option.map_eq_some_iff.1 h
      obtain ⟨rfl, rfl⟩ : c :: front' = front ∧ back' = back := by simpa using heq
      obtain ⟨rfl, hlen⟩ := ih hcut
      refine ⟨rfl, ?_⟩
      rw [byteLength_cons, hlen]
      omega
    | case4 => simp at h
  · rintro ⟨rfl, rfl⟩
    exact splitAt?_append front back

/-- Of two leading parts of one text, the longer starts with the shorter. -/
theorem exists_append_of_byteLength_le {front back left right : List Char}
    (h : front ++ back = left ++ right) (hle : byteLength front ≤ byteLength left) :
    ∃ middle, left = front ++ middle := by
  rcases List.append_eq_append_iff.1 h with ⟨middle, rfl, -⟩ | ⟨middle, rfl, -⟩
  · exact ⟨middle, rfl⟩
  · rw [byteLength_append] at hle
    have hnil : middle = [] := byteLength_eq_zero_iff.1 (by omega)
    exact ⟨[], by simp [hnil]⟩

/-- A byte count is a boundary exactly when it is the length of a leading part of the text. -/
theorem isBoundary_iff {n : Nat} {cs : List Char} :
    isBoundary n cs = true ↔ ∃ front back, cs = front ++ back ∧ byteLength front = n := by
  rw [isBoundary, Option.isSome_iff_exists]
  constructor
  · rintro ⟨⟨front, back⟩, h⟩
    exact ⟨front, back, splitAt?_eq_some_iff.1 h⟩
  · rintro ⟨front, back, h⟩
    exact ⟨(front, back), splitAt?_eq_some_iff.2 h⟩

/-- No boundary lies past the end of the text. -/
theorem le_of_isBoundary {n : Nat} {cs : List Char} (h : isBoundary n cs = true) :
    n ≤ byteLength cs := by
  obtain ⟨front, back, rfl, rfl⟩ := isBoundary_iff.1 h
  simp

/-- Where there is a cut, it is made without a fault. -/
theorem cut_of_splitAt? {n : Nat} {cs : List Char} {parts : List Char × List Char}
    (h : splitAt? n cs = some parts) : cut n cs = .ok parts := by
  rw [cut, h]

/-- Beyond a boundary, the boundaries of a text are those of the part that remains. -/
theorem isBoundary_add {n : Nat} {front back : List Char} :
    isBoundary (byteLength front + n) (front ++ back) = isBoundary n back := by
  rw [Bool.eq_iff_iff, isBoundary_iff, isBoundary_iff]
  constructor
  · rintro ⟨left, right, hsplit, hlen⟩
    have hle : byteLength front ≤ byteLength left := by omega
    obtain ⟨middle, rfl⟩ := exists_append_of_byteLength_le hsplit hle
    refine ⟨middle, right, ?_, ?_⟩
    · rw [List.append_assoc] at hsplit
      exact List.append_cancel_left hsplit
    · rw [byteLength_append] at hlen
      omega
  · rintro ⟨left, right, rfl, rfl⟩
    exact ⟨front ++ left, right, by simp, by simp⟩

/-- A slice between two boundaries is the middle one of three parts of the text. -/
theorem slice?_eq_some_iff {start stop : Nat} {cs middle : List Char} :
    slice? start stop cs = some middle ↔
      ∃ front back, cs = front ++ middle ++ back ∧
        byteLength front = start ∧ byteLength (front ++ middle) = stop := by
  constructor
  · intro h
    rw [slice?] at h
    split at h
    · next hle =>
      obtain ⟨⟨front, rest⟩, hcut, h⟩ := Option.bind_eq_some_iff.1 h
      obtain ⟨⟨middle', back⟩, hcut', rfl⟩ := Option.map_eq_some_iff.1 h
      obtain ⟨rfl, hfront⟩ := splitAt?_eq_some_iff.1 hcut
      obtain ⟨rfl, hmiddle⟩ := splitAt?_eq_some_iff.1 hcut'
      refine ⟨front, back, by simp, hfront, ?_⟩
      rw [byteLength_append, hfront, hmiddle]
      omega
    · simp at h
  · rintro ⟨front, back, rfl, rfl, rfl⟩
    have hlen : byteLength (front ++ middle) - byteLength front = byteLength middle := by
      rw [byteLength_append]
      omega
    rw [slice?, if_pos (by simp), List.append_assoc, splitAt?_append, hlen]
    simp [splitAt?_append]

end ContextParser.Text
