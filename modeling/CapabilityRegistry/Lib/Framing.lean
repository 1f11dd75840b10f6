import Mathlib

/-! Items framed in a stream of bytes that arrives in pieces of any size. -/
namespace Framing

/-- What a scan finds at the front of a buffer: less than one item, a fault, or an item and what
follows it. -/
inductive Scan (Byte Item Fault : Type)
  | more
  | fault (fault : Fault)
  | item (item : Item) (rest : List Byte)

variable {Byte Item Fault : Type} {scan : List Byte → Scan Byte Item Fault}
  {frame : Item → List Byte} {Good : Item → Prop} {size : Item → Nat} {items : List Item}
  {buffer rest : List Byte} {chunks : List (List Byte)} {fuel bound m n : Nat} {full : Fault}

/-- Scanning undoes framing: a whole item is found whatever follows it, a proper part of one is
not. -/
structure Framed (scan : List Byte → Scan Byte Item Fault) (frame : Item → List Byte)
    (Good : Item → Prop) : Prop where
  empty : scan [] = .more
  nonempty : ∀ {item}, Good item → frame item ≠ []
  whole : ∀ {item}, Good item → ∀ rest, scan (frame item ++ rest) = .item item rest
  part : ∀ {item front rest}, Good item → frame item = front ++ rest → rest ≠ [] →
    scan front = .more

section Counting

/-- The items that are whole within the first `n` bytes of their stream. -/
def arrived (size : Item → Nat) : List Item → Nat → List Item
  | [], _ => []
  | item :: items, n =>
    if size item ≤ n then item :: arrived size items (n - size item) else []

/-- How many of the first `n` bytes of the stream belong to an item that is not whole yet. -/
def pending (size : Item → Nat) : List Item → Nat → Nat
  | [], n => n
  | item :: items, n => if size item ≤ n then pending size items (n - size item) else n

theorem arrived_append_drop :
    arrived size items n ++ items.drop (arrived size items n).length = items := by
  induction items generalizing n with
  | nil => rfl
  | cons item items ih =>
    by_cases h : size item ≤ n
    · simp [arrived, h, ih]
    · simp [arrived, h]

/-- What is pending later depends on the items that have not arrived and on the bytes pending
now. -/
theorem pending_add :
    pending size (items.drop (arrived size items n).length) (pending size items n + m) =
      pending size items (n + m) := by
  induction items generalizing n with
  | nil => rfl
  | cons item items ih =>
    by_cases h : size item ≤ n
    · have hm : size item ≤ n + m := by omega
      have hsub : n + m - size item = n - size item + m := by omega
      simp only [arrived, pending, if_pos h, if_pos hm, List.length_cons, List.drop_succ_cons,
        hsub, ih]
    · simp [arrived, pending, h]

/-- Every piece finds room beside the bytes that are pending when it comes. -/
def Fits (size : Item → Nat) (bound : Nat) (items : List Item) : Nat → List (List Byte) → Prop
  | _, [] => True
  | n, chunk :: chunks =>
    pending size items n + chunk.length ≤ bound ∧
      Fits size bound items (n + chunk.length) chunks

theorem fits_drop :
    Fits size bound (items.drop (arrived size items n).length) (pending size items n + m) chunks ↔
      Fits size bound items (n + m) chunks := by
  induction chunks generalizing m with
  | nil => exact Iff.rfl
  | cons chunk chunks ih =>
    simp only [Fits, pending_add, Nat.add_assoc, ih]

/-- Within the stream, what is pending is less than some whole item. -/
theorem pending_lt (h : n < (items.map size).sum) :
    ∃ item ∈ items, pending size items n < size item := by
  induction items generalizing n with
  | nil => simp at h
  | cons item items ih =>
    rw [List.map_cons, List.sum_cons] at h
    by_cases hn : size item ≤ n
    · obtain ⟨next, hmem, hlt⟩ := ih (n := n - size item) (by omega)
      exact ⟨next, List.mem_cons_of_mem _ hmem, by simpa [pending, hn] using hlt⟩
    · exact ⟨item, List.mem_cons_self, by simp only [pending, if_neg hn]; omega⟩

theorem pending_zero : pending size items 0 = 0 := by
  induction items with
  | nil => rfl
  | cons item items ih => simp [pending, ih]

theorem pending_sum : pending size items (items.map size).sum = 0 := by
  induction items with
  | nil => rfl
  | cons item items ih => simp [pending, ih]

/-- Pieces of at most one byte fit as soon as every item does. -/
theorem fits_bytes (hs : ∀ item ∈ items, size item ≤ bound)
    (hc : ∀ chunk ∈ chunks, chunk.length ≤ 1)
    (htotal : n + chunks.flatten.length ≤ (items.map size).sum) :
    Fits size bound items n chunks := by
  induction chunks generalizing n with
  | nil => trivial
  | cons chunk chunks ih =>
    have hone : chunk.length ≤ 1 := hc chunk List.mem_cons_self
    simp only [List.flatten_cons, List.length_append] at htotal
    refine ⟨?_, ih (fun c h => hc c (List.mem_cons_of_mem _ h)) (by omega)⟩
    by_cases hend : n < (items.map size).sum
    · obtain ⟨item, hmem, hlt⟩ := pending_lt hend
      have hsize := hs item hmem
      omega
    · have hn : n = (items.map size).sum := by omega
      have hzero : pending size items n = 0 := hn ▸ pending_sum
      omega

theorem pending_le : pending size items n ≤ n := by
  induction items generalizing n with
  | nil => exact Nat.le_refl n
  | cons item items ih =>
    rw [pending]
    split
    · exact ih.trans (Nat.sub_le _ _)
    · exact Nat.le_refl n

/-- Where every byte is pending, nothing has arrived. -/
theorem arrived_of_pending (hs : ∀ item ∈ items, 0 < size item) (h : pending size items n = n) :
    arrived size items n = [] := by
  cases items with
  | nil => rfl
  | cons item items =>
    have hpos := hs item List.mem_cons_self
    rw [pending] at h
    rw [arrived]
    split
    · next hle =>
      rw [if_pos hle] at h
      have := @pending_le _ size items (n - size item)
      omega
    · rfl

/-- With `n` bytes pending, every piece finds room beside what is pending when it comes, and
completes at most one item. -/
def Spaced (size : Item → Nat) (bound : Nat) : List Item → Nat → List (List Byte) → Prop
  | _, _, [] => True
  | items, n, chunk :: chunks =>
    n + chunk.length ≤ bound ∧ (arrived size items (n + chunk.length)).length ≤ 1 ∧
      Spaced size bound (items.drop (arrived size items (n + chunk.length)).length)
        (pending size items (n + chunk.length)) chunks

end Counting

section Drain

/-- The number of bytes an item takes in the stream. -/
abbrev width (frame : Item → List Byte) (item : Item) : Nat := (frame item).length

/-- Takes items off the front of a buffer until it holds no whole one, at most `fuel` of them. -/
def drain (scan : List Byte → Scan Byte Item Fault) :
    Nat → List Byte → List Item × Except Fault (List Byte)
  | 0, buffer => ([], .ok buffer)
  | fuel + 1, buffer =>
    match scan buffer with
    | .more => ([], .ok buffer)
    | .fault fault => ([], .error fault)
    | .item item rest =>
      let (items, left) := drain scan fuel rest
      (item :: items, left)

theorem drain_more (h : scan buffer = .more) : drain scan fuel buffer = ([], .ok buffer) := by
  cases fuel with
  | zero => rfl
  | succ fuel => simp [drain, h]

/-- A buffer that holds the front of a stream yields the items that have arrived in it. -/
theorem Framed.drain_front (hf : Framed scan frame Good) (hg : ∀ item ∈ items, Good item)
    (hs : buffer ++ rest = items.flatMap frame) (hfuel : buffer.length ≤ fuel) :
    ∃ left, drain scan fuel buffer =
        (arrived (width frame) items buffer.length, .ok left) ∧
      left.length = pending (width frame) items buffer.length ∧
      left ++ rest = (items.drop (arrived (width frame) items
        buffer.length).length).flatMap frame := by
  induction items generalizing buffer fuel with
  | nil =>
    obtain ⟨rfl, rfl⟩ : buffer = [] ∧ rest = [] := by simpa using hs
    exact ⟨[], drain_more hf.empty, rfl, rfl⟩
  | cons item items ih =>
    have hitem : Good item := hg item List.mem_cons_self
    rw [List.flatMap_cons] at hs
    by_cases hlen : (frame item).length ≤ buffer.length
    · obtain ⟨tail, rfl⟩ : frame item <+: buffer :=
        List.prefix_of_prefix_length_le ⟨_, hs.symm⟩ ⟨_, rfl⟩ hlen
      have hpos : 0 < (frame item).length := List.length_pos_iff.mpr (hf.nonempty hitem)
      rw [List.append_assoc, List.append_cancel_left_eq] at hs
      obtain ⟨fuel, rfl⟩ : ∃ k, fuel = k + 1 :=
        ⟨fuel - 1, by simp only [List.length_append] at hfuel; omega⟩
      have htail : tail.length ≤ fuel := by
        simp only [List.length_append] at hfuel
        omega
      obtain ⟨left, hdrain, hpend, hrest⟩ :=
        ih (fun i h => hg i (List.mem_cons_of_mem _ h)) hs htail
      refine ⟨left, ?_, ?_, ?_⟩
      · simp [drain, hf.whole hitem, hdrain, arrived]
      · simpa [pending] using hpend
      · simpa [arrived] using hrest
    · obtain ⟨tail, htail⟩ : buffer <+: frame item :=
        List.prefix_of_prefix_length_le ⟨_, hs⟩ ⟨_, rfl⟩ (by omega)
      have hne : tail ≠ [] := by
        rintro rfl
        simp only [List.append_nil] at htail
        exact hlen (by rw [htail])
      have hmore : scan buffer = .more := hf.part hitem htail.symm hne
      refine ⟨buffer, ?_, ?_, ?_⟩
      · simp [drain_more hmore, arrived, hlen]
      · simp [pending, hlen]
      · simpa [arrived, hlen] using hs

/-- One delivery into a buffer of bounded size. -/
def accept (scan : List Byte → Scan Byte Item Fault) (bound : Nat) (full : Fault)
    (buffer chunk : List Byte) : List Item × Except Fault (List Byte) :=
  if bound < buffer.length + chunk.length then ([], .error full)
  else drain scan (buffer ++ chunk).length (buffer ++ chunk)

/-- Deliveries one after another, up to the first that fails. -/
def acceptAll (scan : List Byte → Scan Byte Item Fault) (bound : Nat) (full : Fault) :
    List Byte → List (List Byte) → Except Fault (List Item × List Byte)
  | buffer, [] => .ok ([], buffer)
  | buffer, chunk :: chunks => do
    let left ← (accept scan bound full buffer chunk).2
    let (items, last) ← acceptAll scan bound full left chunks
    pure ((accept scan bound full buffer chunk).1 ++ items, last)

/-- After a delivery that succeeds, the others deliver the rest of the items. -/
theorem acceptAll_cons_eq_ok {chunk left : List Byte}
    (h : accept scan bound full buffer chunk = (items, .ok left)) {later : List Item} :
    acceptAll scan bound full buffer (chunk :: chunks) = .ok (items ++ later, rest) ↔
      acceptAll scan bound full left chunks = .ok (later, rest) := by
  simp only [acceptAll, h]
  change (acceptAll scan bound full left chunks >>= _) = _ ↔ _
  cases acceptAll scan bound full left chunks with
  | error fault => simp [bind, Except.bind]
  | ok result => simp [bind, Except.bind, pure, Except.pure, Prod.ext_iff]

/-- The items come out of the pieces whole and in order exactly if every piece finds room. -/
theorem Framed.acceptAll_iff (hf : Framed scan frame Good) (hg : ∀ item ∈ items, Good item)
    (hs : buffer ++ chunks.flatten = items.flatMap frame)
    (hb : pending (width frame) items buffer.length = buffer.length) :
    acceptAll scan bound full buffer chunks = .ok (items, []) ↔
      Fits (width frame) bound items buffer.length chunks := by
  induction chunks generalizing buffer items with
  | nil =>
    have hlen : buffer.length = (items.map (width frame)).sum := by
      have := congrArg List.length hs
      simpa [List.length_flatMap] using this
    have hnil : buffer = [] := by
      rw [← List.length_eq_zero_iff, ← hb, hlen, pending_sum]
    have hitems : items = [] := by
      cases items with
      | nil => rfl
      | cons item items =>
        have hempty : frame item = [] := by simp_all
        exact absurd hempty (hf.nonempty (hg item List.mem_cons_self))
    simp [acceptAll, Fits, hnil, hitems]
  | cons chunk chunks ih =>
    rw [List.flatten_cons, ← List.append_assoc] at hs
    obtain ⟨left, hdrain, hleft, hrest⟩ := hf.drain_front hg hs (Nat.le_refl _)
    rw [List.length_append] at hdrain hleft hrest
    have hpend : pending (width frame) _ _ = _ := @pending_add Item (width frame) items 0
      (buffer.length + chunk.length)
    have hnext := ih (fun item h => hg item (List.mem_of_mem_drop h)) hrest (hleft ▸ hpend)
    by_cases hroom : bound < buffer.length + chunk.length
    · have hfull : ¬ pending (width frame) items buffer.length
          + chunk.length ≤ bound := by omega
      simp [acceptAll, accept, hroom, Fits, hfull, bind, Except.bind]
    · have haccept : accept scan bound full buffer chunk =
          (arrived (width frame) items (buffer.length + chunk.length), .ok left) := by
        rw [accept, if_neg hroom, List.length_append]
        exact hdrain
      have hfits : Fits (width frame) bound (items.drop (arrived (width frame) items
            (buffer.length + chunk.length)).length) left.length chunks ↔
          Fits (width frame) bound items (buffer.length + chunk.length) chunks := by
        rw [hleft]
        exact fits_drop (m := 0)
      have hle : pending (width frame) items buffer.length + chunk.length ≤ bound := by omega
      simp only [Fits, hle, true_and, ← hfits, ← hnext]
      rw [← acceptAll_cons_eq_ok haccept, arrived_append_drop]

end Drain

section Exact

/-- A scan only ever finds what was framed. -/
def Exact (scan : List Byte → Scan Byte Item Fault) (frame : Item → List Byte)
    (Good : Item → Prop) : Prop :=
  ∀ {buffer item rest}, scan buffer = .item item rest → Good item ∧ frame item ++ rest = buffer

/-- What draining a buffer leaves undone: less than one item, or a fault in front. -/
def Stuck (scan : List Byte → Scan Byte Item Fault) (tail : List Byte) :
    Except Fault (List Byte) → Prop
  | .ok left => left = tail ∧ scan tail = .more
  | .error fault => scan tail = .fault fault

/-- A drained buffer begins with the items it yielded. -/
theorem Exact.drain (h : Exact scan frame Good) (hf : Framed scan frame Good)
    (hfuel : buffer.length ≤ fuel) : ∃ tail,
      (∀ item ∈ (drain scan fuel buffer).1, Good item) ∧
        (drain scan fuel buffer).1.flatMap frame ++ tail = buffer ∧
        Stuck scan tail (drain scan fuel buffer).2 := by
  induction fuel generalizing buffer with
  | zero =>
    obtain rfl := List.length_eq_zero_iff.mp (Nat.le_zero.mp hfuel)
    exact ⟨[], by simp [Framing.drain], rfl, rfl, hf.empty⟩
  | succ fuel ih =>
    unfold Framing.drain
    cases hs : scan buffer with
    | more => exact ⟨buffer, by simp, rfl, rfl, hs⟩
    | fault fault => exact ⟨buffer, by simp, rfl, hs⟩
    | item item rest =>
      obtain ⟨hgood, rfl⟩ := h hs
      have hpos := List.length_pos_iff.mpr (hf.nonempty hgood)
      have hrest : rest.length ≤ fuel := by
        rw [List.length_append] at hfuel
        omega
      obtain ⟨tail, hitems, hbytes, hstuck⟩ := ih hrest
      refine ⟨tail, List.forall_mem_cons.mpr ⟨hgood, hitems⟩, ?_, hstuck⟩
      simp only [List.flatMap_cons, List.append_assoc, hbytes]

theorem Exact.acceptAll (h : Exact scan frame Good) (hf : Framed scan frame Good)
    {left : List Byte} (ha : acceptAll scan bound full buffer chunks = .ok (items, left)) :
    (∀ item ∈ items, Good item) ∧ items.flatMap frame ++ left = buffer ++ chunks.flatten := by
  induction chunks generalizing buffer items with
  | nil =>
    obtain ⟨⟩ := ha
    simp
  | cons chunk chunks ih =>
    rcases hc : accept scan bound full buffer chunk with ⟨found, fault | next⟩
    · simp [Framing.acceptAll, hc, bind, Except.bind] at ha
    · obtain ⟨later, rfl⟩ : ∃ later, items = found ++ later := by
        simp only [Framing.acceptAll, hc] at ha
        cases hn : Framing.acceptAll scan bound full next chunks with
        | error fault => simp [hn, bind, Except.bind] at ha
        | ok p =>
          simp only [hn, bind, Except.bind, pure, Except.pure, Except.ok.injEq] at ha
          exact ⟨_, (Prod.mk.inj ha).1.symm⟩
      obtain ⟨hlater, hbytes⟩ := ih ((acceptAll_cons_eq_ok hc).mp ha)
      obtain ⟨tail, hfound, hfront, hstuck⟩ := h.drain hf (Nat.le_refl (buffer ++ chunk).length)
      rw [accept] at hc
      split at hc
      · cases hc
      · rw [hc] at hfound hfront hstuck
        obtain ⟨rfl, -⟩ := hstuck
        refine ⟨fun item hi => (List.mem_append.mp hi).elim (hfound item) (hlater item), ?_⟩
        rw [List.flatMap_append, List.append_assoc, hbytes, ← List.append_assoc, hfront,
          List.append_assoc, List.flatten_cons]

/-- A stream splits only one way into items and something that begins with a fault. -/
theorem Framed.split_fault (hf : Framed scan frame Good) {found : List Item}
    {tail left : List Byte} {fault : Fault} (hg : ∀ item ∈ items, Good item)
    (hfound : ∀ item ∈ found, Good item) (hfault : scan tail = .fault fault)
    (h : found.flatMap frame ++ left = items.flatMap frame ++ tail) :
    ∃ later, items = found ++ later ∧ left = later.flatMap frame ++ tail := by
  induction found generalizing items with
  | nil => exact ⟨items, rfl, h⟩
  | cons item found ih =>
    have hscan := congrArg scan h
    rw [List.flatMap_cons, List.append_assoc, hf.whole (hfound item List.mem_cons_self)] at hscan
    cases items with
    | nil =>
      rw [List.flatMap_nil, List.nil_append, hfault] at hscan
      cases hscan
    | cons first items =>
      rw [List.flatMap_cons, List.append_assoc, hf.whole (hg first List.mem_cons_self)] at hscan
      obtain ⟨rfl, hrest⟩ := Scan.item.inj hscan
      obtain ⟨later, rfl, hleft⟩ := ih (fun i hi => hg i (List.mem_cons_of_mem _ hi))
        (fun i hi => hfound i (List.mem_cons_of_mem _ hi)) hrest
      exact ⟨later, rfl, hleft⟩

/-- However a stream is cut, some delivery fails where a fault stands in it, and nothing behind the
fault has come out by then. -/
theorem Exact.refused (h : Exact scan frame Good) (hf : Framed scan frame Good)
    {tail : List Byte} {fault : Fault} (hg : ∀ item ∈ items, Good item)
    (hfault : scan tail = .fault fault) (hmore : scan buffer = .more)
    (hs : buffer ++ chunks.flatten = items.flatMap frame ++ tail) :
    ∃ done chunk later found left more e, chunks = done ++ chunk :: later ∧
      Framing.acceptAll scan bound full buffer done = .ok (found, left) ∧
      accept scan bound full left chunk = (more, .error e) ∧ found ++ more <+: items := by
  induction chunks generalizing buffer items with
  | nil =>
    rw [List.flatten_nil, List.append_nil] at hs
    rw [hs] at hmore
    cases items with
    | nil =>
      rw [List.flatMap_nil, List.nil_append, hfault] at hmore
      cases hmore
    | cons first items =>
      rw [List.flatMap_cons, List.append_assoc, hf.whole (hg first List.mem_cons_self)] at hmore
      cases hmore
  | cons chunk chunks ih =>
    by_cases hroom : bound < buffer.length + chunk.length
    · exact ⟨[], chunk, chunks, [], buffer, [], full, rfl, rfl, if_pos hroom, List.nil_prefix⟩
    · obtain ⟨left, hfound, hfront, hstuck⟩ := h.drain hf (Nat.le_refl (buffer ++ chunk).length)
      have haccept : accept scan bound full buffer chunk =
          Framing.drain scan (buffer ++ chunk).length (buffer ++ chunk) := if_neg hroom
      rw [List.flatten_cons, ← List.append_assoc, ← hfront, List.append_assoc] at hs
      obtain ⟨later, rfl, hleft⟩ := hf.split_fault hg hfound hfault hs
      rcases hd : Framing.drain scan (buffer ++ chunk).length (buffer ++ chunk) with ⟨found, e | next⟩
      · rw [hd] at haccept
        exact ⟨[], chunk, chunks, [], buffer, found, e, rfl, rfl, haccept,
          List.prefix_append found later⟩
      · rw [hd] at haccept hstuck
        obtain ⟨rfl, hnext⟩ := hstuck
        obtain ⟨done, last, rest, found', left', more, e, rfl, hdone, hlast, hprefix⟩ :=
          ih (fun i hi => hg i (List.mem_append_right _ hi)) hnext hleft
        refine ⟨chunk :: done, last, rest, found ++ found', left', more, e, rfl,
          (acceptAll_cons_eq_ok haccept).mpr hdone, hlast, ?_⟩
        rw [List.append_assoc]
        exact (List.prefix_append_right_inj found).mpr hprefix

end Exact

end Framing
