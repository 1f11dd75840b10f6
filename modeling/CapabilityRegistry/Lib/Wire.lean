import Mathlib

/-! Byte strings written field by field and read back from the front of a buffer. -/
namespace Wire

section Words
variable {k n : Nat} {bytes : List UInt8}

/-- The `k` low bytes of a number, the lowest first. -/
def word : Nat → Nat → List UInt8
  | 0, _ => []
  | k + 1, n => n.toUInt8 :: word k (n / 256)

/-- The number whose bytes these are, the lowest first. -/
def number : List UInt8 → Nat
  | [] => 0
  | byte :: bytes => byte.toNat + 256 * number bytes

@[simp] theorem length_word : (word k n).length = k := by
  induction k generalizing n with
  | zero => rfl
  | succ k ih => simp [word, ih]

theorem number_word : number (word k n) = n % 256 ^ k := by
  induction k generalizing n with
  | zero => simp [word, number, Nat.mod_one]
  | succ k ih =>
    have hlow : n.toUInt8.toNat = n % 256 := UInt8.toNat_ofNat'
    rw [word, number, ih, hlow, Nat.pow_succ', Nat.mod_mul]

theorem number_word_eq (h : n < 256 ^ k) : number (word k n) = n :=
  number_word.trans (Nat.mod_eq_of_lt h)

theorem number_lt (bytes : List UInt8) : number bytes < 256 ^ bytes.length := by
  induction bytes with
  | nil => simp [number]
  | cons byte bytes ih =>
    have hbyte := byte.toNat_lt
    rw [number, List.length_cons, Nat.pow_succ']
    omega

theorem word_number (bytes : List UInt8) : word bytes.length (number bytes) = bytes := by
  induction bytes with
  | nil => rfl
  | cons byte bytes ih =>
    have hbyte := byte.toNat_lt
    have hlow : (byte.toNat + 256 * number bytes).toUInt8 = byte := by
      apply UInt8.toNat_inj.mp
      simp only [Nat.toUInt8_eq, UInt8.toNat_ofNat']
      omega
    have hhigh : (byte.toNat + 256 * number bytes) / 256 = number bytes := by omega
    rw [number, List.length_cons, word, hlow, hhigh, ih]

end Words

/-- A reader takes a value off the front of a buffer or fails; after its first failure it reads
nothing more. -/
abbrev Reader (ε : Type) := StateT (List UInt8) (Except ε)

section Readers
variable {ε α β : Type} {r : Reader ε α} {k : α → Reader ε β} {bytes more rest : List UInt8} {a : α}
  {b : β} {n : Nat} {e : ε} {P : α → Prop} {Q : β → Prop}

def fail (e : ε) : Reader ε α := fun _ => .error e

/-- The number of bytes that are left. -/
def remaining : Reader ε Nat := fun bytes => .ok (bytes.length, bytes)

/-- The next `n` bytes. -/
def take (n : Nat) (e : ε) : Reader ε (List UInt8) := fun bytes =>
  if bytes.length < n then .error e else .ok (bytes.take n, bytes.drop n)

/-- A reader of `n`-byte words. -/
def readWord (n : Nat) (e : ε) : Reader ε Nat := number <$> take n e

/-- The same reader `n` times. -/
def times (r : Reader ε α) : Nat → Reader ε (List α)
  | 0 => pure []
  | n + 1 => do
    let a ← r
    let as ← times r n
    pure (a :: as)

/-- Two readers in turn. -/
def both (r : Reader ε α) (r' : Reader ε β) : Reader ε (α × β) := do
  let a ← r
  let b ← r'
  pure (a, b)

theorem bind_eq_ok : (r >>= k) bytes = .ok (b, rest) ↔
    ∃ a left, r bytes = .ok (a, left) ∧ k a left = .ok (b, rest) := by
  change (r bytes >>= fun p => k p.1 p.2) = _ ↔ _
  cases r bytes with
  | error e => simp [bind, Except.bind]
  | ok p =>
    obtain ⟨a, left⟩ := p
    simp [bind, Except.bind]

theorem pure_eq_ok {b' : α} : (pure a : Reader ε α) bytes = .ok (b', rest) ↔ a = b' ∧ bytes = rest := by
  change Except.ok (a, bytes) = _ ↔ _
  simp

theorem map_eq_ok {f : α → β} : (f <$> r) bytes = .ok (b, rest) ↔
    ∃ a, r bytes = .ok (a, rest) ∧ f a = b := by
  rw [map_eq_pure_bind, bind_eq_ok]
  simp only [pure_eq_ok]
  constructor
  · rintro ⟨a, left, h, rfl, rfl⟩
    exact ⟨a, h, rfl⟩
  · rintro ⟨a, h, rfl⟩
    exact ⟨a, rest, h, rfl, rfl⟩

/-- On these bytes the reader returns this value and leaves whatever follows them. -/
def Reads (r : Reader ε α) (bytes : List UInt8) (a : α) : Prop :=
  ∀ rest, r (bytes ++ rest) = .ok (a, rest)

/-- Whatever the reader returns has the property. -/
def Yields (r : Reader ε α) (P : α → Prop) : Prop :=
  ∀ bytes a rest, r bytes = .ok (a, rest) → P a

theorem reads_pure : Reads (pure a : Reader ε α) [] a := fun _ => rfl

theorem Reads.bind (h : Reads r bytes a) (hk : Reads (k a) more b) :
    Reads (r >>= k) (bytes ++ more) b := by
  intro rest
  rw [bind_eq_ok]
  refine ⟨a, more ++ rest, ?_, hk rest⟩
  rw [List.append_assoc]
  exact h _

theorem Reads.map (h : Reads r bytes a) (f : α → β) : Reads (f <$> r) bytes (f a) :=
  fun rest => map_eq_ok.mpr ⟨a, h rest, rfl⟩

theorem reads_take (h : bytes.length = n) : Reads (take n e) bytes bytes := by
  intro rest
  subst h
  simp [take]

/-- A value that a number of `n` bytes stands for is read back from that number. -/
theorem reads_word {ofNat : Nat → α} {value : Nat} (h : value < 2 ^ (8 * n))
    (hof : ofNat value = a) : Reads (ofNat <$> readWord n e) (word n value) a := by
  have hfits : value < 256 ^ n := by rwa [Nat.pow_mul] at h
  have hread : Reads (ofNat <$> readWord n e) (word n value) (ofNat (number (word n value))) :=
    ((reads_take length_word).map number).map ofNat
  rwa [number_word_eq hfits, hof] at hread

theorem yields_true : Yields r fun _ => True := fun _ _ _ _ => trivial

theorem yields_take : Yields (take n e) fun bytes => bytes.length = n := by
  intro bytes taken rest h
  unfold take at h
  split at h
  · cases h
  · cases h
    simp only [List.length_take]
    omega

theorem yields_pure (h : P a) : Yields (pure a : Reader ε α) P := by
  intro bytes b rest hr
  obtain ⟨rfl, -⟩ := pure_eq_ok.mp hr
  exact h

theorem yields_fail : Yields (fail e) P := fun _ _ _ h => by cases h

theorem Yields.bind (h : Yields r P) (hk : ∀ a, P a → Yields (k a) Q) : Yields (r >>= k) Q := by
  intro bytes b rest hr
  obtain ⟨a, left, ha, hb⟩ := bind_eq_ok.mp hr
  exact hk a (h _ _ _ ha) _ _ _ hb

theorem Yields.map {f : α → β} (h : Yields r P) (hf : ∀ a, P a → Q (f a)) : Yields (f <$> r) Q := by
  intro bytes b rest hr
  obtain ⟨a, ha, rfl⟩ := map_eq_ok.mp hr
  exact hf a (h _ _ _ ha)

end Readers

/-- The reader gives back exactly the values that fit: they come back from what is written for
them, and nothing else ever comes back. -/
structure Round {ε α : Type} (write : α → List UInt8) (read : Reader ε α) (Fits : α → Prop) :
    Prop where
  reads : ∀ a, Fits a → Reads read (write a) a
  yields : Yields read Fits

section Rounds
variable {ε α β τ : Type} {w : α → List UInt8} {r : Reader ε α} {F : α → Prop}
  {w' : β → List UInt8} {r' : Reader ε β} {G : β → Prop} {e : ε}

theorem Round.comes_back_iff (h : Round w r F) (a : α) (rest : List UInt8) :
    r (w a ++ rest) = .ok (a, rest) ↔ F a :=
  ⟨h.yields _ _ _, fun hf => h.reads a hf rest⟩

theorem Round.congr (h : Round w r F) {F' : α → Prop} (hf : ∀ a, F' a ↔ F a) : Round w r F' where
  reads a ha := h.reads a ((hf a).mp ha)
  yields bytes a rest hr := (hf a).mpr (h.yields bytes a rest hr)

theorem Round.both (h : Round w r F) (h' : Round w' r' G) :
    Round (fun p : α × β => w p.1 ++ w' p.2) (both r r') fun p => F p.1 ∧ G p.2 where
  reads p hp := by
    have hpair := (h.reads p.1 hp.1).bind (k := fun a => do
      let b ← r'
      pure (a, b)) ((h'.reads p.2 hp.2).bind (reads_pure (a := p)))
    rwa [List.append_nil] at hpair
  yields := h.yields.bind fun a ha => h'.yields.bind fun b hb => yields_pure ⟨ha, hb⟩

/-- A value read through a representation: `raw` writes it, `parse` takes it back. -/
theorem Round.through (h : Round w r F) {raw : β → α} {parse : α → β}
    (hparse : ∀ b, G b → parse (raw b) = b) (hraw : ∀ b, G b → F (raw b))
    (hyield : ∀ a, F a → G (parse a)) :
    Round (fun b => w (raw b)) (parse <$> r) G where
  reads b hb := by
    have hread := (h.reads (raw b) (hraw b hb)).map parse
    rwa [hparse b hb] at hread
  yields := h.yields.map hyield

/-- A record read field by field. -/
theorem Round.record {write : β → List UInt8} {read : Reader ε β} (h : Round w r F)
    (fields : β → α) (make : α → β) (hread : read = make <$> r)
    (hwrite : ∀ b, write b = w (fields b)) (hmake : ∀ b, make (fields b) = b)
    (hfields : ∀ a, fields (make a) = a) : Round write read fun b => F (fields b) := by
  obtain rfl : write = fun b => w (fields b) := funext hwrite
  rw [hread]
  exact h.through (fun b _ => hmake b) (fun _ hb => hb) fun a ha => by rwa [hfields]

/-- A representation that is checked before it is taken back. -/
def checked (r : Reader ε α) (parse? : α → Option β) (e : ε) : Reader ε β := do
  let a ← r
  match parse? a with
  | some b => pure b
  | none => fail e

theorem Round.checked (h : Round w r F) (raw : β → α) {parse? : α → Option β}
    (hparse : ∀ b, parse? (raw b) = some b) (hraw : ∀ b, F (raw b)) :
    Round (fun b => w (raw b)) (checked r parse? e) fun _ => True where
  reads b _ := by
    have hparsed : Reads (match parse? (raw b) with
        | some b => pure b
        | none => fail e : Reader ε β) [] b := by
      rw [hparse]
      exact reads_pure
    have hread := (h.reads (raw b) (hraw b)).bind (k := fun a =>
      match parse? a with
      | some b => pure b
      | none => fail e) hparsed
    rwa [List.append_nil] at hread
  yields := yields_true

/-- A value behind a tag that says how it goes on. -/
theorem Round.tagged {tag : β → α} {read : α → Reader ε β} (h : Round w r F)
    (htag : ∀ b, G b → F (tag b)) (hread : ∀ b, G b → Reads (read (tag b)) (w' b) b)
    (hyield : ∀ a, F a → Yields (read a) G) :
    Round (fun b => w (tag b) ++ w' b) (r >>= read) G where
  reads b hb := (h.reads _ (htag b hb)).bind (hread b hb)
  yields := h.yields.bind hyield

/-- What a reader does for the values of one tag: it reads those that fit, and nothing that does
not. -/
structure Shape {ε κ β : Type} (tag : β → κ) (w : β → List UInt8) (G : β → Prop) (k : κ)
    (read : Reader ε β) : Prop where
  reads : ∀ b, tag b = k → G b → Reads read (w b) b
  yields : Yields read G

/-- The values of one tag are those of one constructor, whose arguments are read one by one. -/
theorem Round.shape {κ : Type} {tag : β → κ} {k : κ} {read : Reader ε β} (h : Round w r F)
    (make : α → β) (hread : read = make <$> r)
    (hcover : ∀ b, tag b = k → G b → ∃ a, make a = b)
    (hwrite : ∀ a, w' (make a) = w a) (hfit : ∀ a, G (make a) ↔ F a) : Shape tag w' G k read where
  reads b hb hg := by
    obtain ⟨a, rfl⟩ := hcover b hb hg
    rw [hread, hwrite]
    exact (h.reads a ((hfit a).mp hg)).map make
  yields := hread ▸ h.yields.map fun a ha => (hfit a).mpr ha

/-- A value behind a tag, one shape for each tag. -/
theorem Round.switch {tag : β → α} {read : α → Reader ε β} (h : Round w r F)
    (htag : ∀ b, G b → F (tag b)) (hshape : ∀ k, F k → Shape tag w' G k (read k)) :
    Round (fun b => w (tag b) ++ w' b) (r >>= read) G :=
  h.tagged htag (fun b hb => (hshape _ (htag b hb)).reads b rfl hb) fun k hk => (hshape k hk).yields

theorem Round.times (h : Round w r F) {as : List α} (hf : ∀ a ∈ as, F a) :
    Reads (times r as.length) (as.flatMap w) as := by
  induction as with
  | nil => exact reads_pure
  | cons a as ih =>
    have htail := ih fun b hb => hf b (List.mem_cons_of_mem a hb)
    have hread := (h.reads a (hf a List.mem_cons_self)).bind (k := fun a => do
      let as ← Wire.times r as.length
      pure (a :: as)) (htail.bind (reads_pure (a := a :: as)))
    rwa [List.append_nil, ← List.flatMap_cons] at hread

theorem Yields.times (h : Yields r F) (n : Nat) :
    Yields (times r n) fun as => as.length = n ∧ ∀ a ∈ as, F a := by
  induction n with
  | zero => exact yields_pure ⟨rfl, by simp⟩
  | succ n ih =>
    refine h.bind fun a ha => ih.bind fun as has => yields_pure ⟨by simp [has.1], ?_⟩
    exact List.forall_mem_cons.mpr ⟨ha, has.2⟩

/-- A counted list: a count within the bound, and as many values. -/
def counted (count : Reader ε Nat) (bound : Nat) (e : ε) (r : Reader ε α) :
    Reader ε (List α) := do
  let n ← count
  let left ← remaining
  if n > bound ∨ n > left then fail e else times r n

theorem length_le_flatMap {as : List α} (h : ∀ a ∈ as, w a ≠ []) :
    as.length ≤ (as.flatMap w).length := by
  induction as with
  | nil => exact Nat.zero_le _
  | cons a as ih =>
    have hpos : 0 < (w a).length := List.length_pos_iff.mpr (h a List.mem_cons_self)
    have hrest := ih fun b hb => h b (List.mem_cons_of_mem a hb)
    simp only [List.flatMap_cons, List.length_append, List.length_cons]
    omega

theorem Round.counted {count : Reader ε Nat} {wc : Nat → List UInt8} {Small : Nat → Prop}
    (hc : Round wc count Small) (h : Round w r F) (hne : ∀ a, F a → w a ≠ []) (bound : Nat) :
    Round (fun as => wc (min as.length bound) ++ (as.take bound).flatMap w)
      (counted count bound e r)
      fun as => as.length ≤ bound ∧ Small as.length ∧ ∀ a ∈ as, F a where
  reads as := by
    rintro ⟨hle, hsmall, hf⟩
    rw [Nat.min_eq_left hle, List.take_of_length_le hle]
    refine (hc.reads _ hsmall).bind fun rest => ?_
    have hroom : ¬ (as.length > bound ∨ as.length > (as.flatMap w ++ rest).length) := by
      have hlen := length_le_flatMap fun a ha => hne a (hf a ha)
      simp only [List.length_append]
      omega
    rw [bind_eq_ok]
    refine ⟨(as.flatMap w ++ rest).length, as.flatMap w ++ rest, rfl, ?_⟩
    rw [if_neg hroom]
    exact h.times hf rest
  yields := hc.yields.bind fun n hn => yields_true.bind fun left _ => by
    split
    · exact yields_fail
    · next hroom =>
      intro bytes as rest hread
      obtain ⟨rfl, hf⟩ := h.yields.times n _ _ _ hread
      exact ⟨by omega, hn, hf⟩

/-- Bytes behind their length. -/
def prefixed (size : Reader ε Nat) (bound : Nat) (e : ε) : Reader ε (List UInt8) := do
  let n ← size
  let left ← remaining
  if n > bound ∨ n > left then fail e else take n e

theorem Round.prefixed {size : Reader ε Nat} {ws : Nat → List UInt8} {Small : Nat → Prop}
    (hs : Round ws size Small) (bound : Nat) :
    Round (fun bytes => ws (min bytes.length bound) ++ bytes.take bound) (prefixed size bound e)
      fun bytes => bytes.length ≤ bound ∧ Small bytes.length where
  reads bytes := by
    rintro ⟨hle, hsmall⟩
    rw [Nat.min_eq_left hle, List.take_of_length_le hle]
    refine (hs.reads _ hsmall).bind fun rest => ?_
    have hroom : ¬ (bytes.length > bound ∨ bytes.length > (bytes ++ rest).length) := by
      simp only [List.length_append]
      omega
    rw [bind_eq_ok]
    refine ⟨(bytes ++ rest).length, bytes ++ rest, rfl, ?_⟩
    rw [if_neg hroom]
    exact reads_take rfl rest
  yields := hs.yields.bind fun n hn => yields_true.bind fun left _ => by
    split
    · exact yields_fail
    · next hroom =>
      intro bytes taken rest hread
      obtain rfl := yields_take _ _ _ hread
      exact ⟨by omega, hn⟩

end Rounds

section Exact
variable {ε α β : Type} {w : α → List UInt8} {r : Reader ε α} {w' : β → List UInt8}
  {r' : Reader ε β} {n : Nat} {e : ε}

/-- Whatever the reader returns was written in front of what it leaves. -/
def Exact (w : α → List UInt8) (r : Reader ε α) : Prop :=
  ∀ bytes a rest, r bytes = .ok (a, rest) → w a ++ rest = bytes

theorem exact_take : Exact id (take n e) := by
  intro bytes taken rest h
  unfold take at h
  split at h
  · cases h
  · cases h
    exact List.take_append_drop n bytes

/-- A number of `n` bytes has one spelling. -/
theorem exact_word {ofNat : Nat → α} {value : α → Nat}
    (h : ∀ k, k < 2 ^ (8 * n) → value (ofNat k) = k) :
    Exact (fun a => word n (value a)) (ofNat <$> readWord n e) := by
  intro bytes a rest hr
  obtain ⟨k, hk, rfl⟩ := map_eq_ok.mp hr
  obtain ⟨taken, htake, rfl⟩ := map_eq_ok.mp hk
  obtain rfl := yields_take _ _ _ htake
  have hlt : number taken < 2 ^ (8 * taken.length) := by
    rw [Nat.pow_mul]
    exact number_lt taken
  dsimp only
  rw [h _ hlt, word_number]
  exact exact_take _ _ _ htake

theorem Exact.both (h : Exact w r) (h' : Exact w' r') :
    Exact (fun p : α × β => w p.1 ++ w' p.2) (both r r') := by
  intro bytes p rest hr
  simp only [Wire.both, bind_eq_ok, pure_eq_ok] at hr
  obtain ⟨a, left, ha, b, left', hb, rfl, rfl⟩ := hr
  rw [List.append_assoc, h' _ _ _ hb, h _ _ _ ha]

theorem Exact.record {write : β → List UInt8} {read : Reader ε β} (h : Exact w r)
    (fields : β → α) (make : α → β) (hread : read = make <$> r)
    (hwrite : ∀ b, write b = w (fields b)) (hfields : ∀ a, fields (make a) = a) :
    Exact write read := by
  intro bytes b rest hr
  rw [hread] at hr
  obtain ⟨a, ha, rfl⟩ := map_eq_ok.mp hr
  rw [hwrite, hfields]
  exact h _ _ _ ha

end Exact

end Wire
