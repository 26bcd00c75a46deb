import Rsva11001.Utils.FindJffs2Nodes

/-!
# What the JFFS2 node scan finds

The magic does not overlap itself, so the search loop finds all of its occurrences, one after the
other (`searchLoop_eq`); only when there are none is the list not empty but holds the -1 of the
search that filled it. The decoding loop raises at the first location that has too few bytes behind
it (`decode_nat`). So the script reports what it is for when there is an occurrence and every
occurrence has a full header and, if that announces a node, a full node (`scansNodes_iff`).
-/

namespace Rsva11001.FindJffs2Nodes

open Lib

variable {data : List UInt8}

/-! ## Searching -/

theorem jffs2Magic_ne_nil : jffs2Magic ≠ [] := by
  decide

theorem unbordered_jffs2Magic : Unbordered jffs2Magic :=
  unbordered_cons (by decide)

theorem find_nat (data sub : List UInt8) (start : Nat) :
    find data sub start = ((firstFrom sub data start).map Int.ofNat).getD (-1) := by
  rw [find, Int.toNat_natCast]
  cases firstFrom sub data start <;> rfl

/-- One round of the search loop, behind the hit at `i`. -/
theorem searchLoop_round {found rest : List Nat} {i : Nat}
    (h : occurrences jffs2Magic data = found ++ i :: rest) (fuel : Nat) :
    searchLoop data (fuel + 1) ((found ++ [i]).map Int.ofNat) =
      match rest.head? with
      | none => some ((found ++ [i]).map Int.ofNat)
      | some j => searchLoop data fuel ((found ++ [i] ++ [j]).map Int.ofNat) := by
  have hlast : ((found ++ [i]).map Int.ofNat).getLastD (-1) = i := by
    rw [List.map_append, List.map_singleton, List.getLastD_concat]
    rfl
  have hnext := unbordered_jffs2Magic.firstFrom_next jffs2Magic_ne_nil h
  rw [searchLoop, hlast, ← Int.natCast_add, find_nat, hnext]
  cases rest with
  | nil => rfl
  | cons j rest =>
    have hpos : (j : Int) ≠ -1 := by omega
    simp [hpos]

/-- From a hit on the search loop appends the hits behind it. -/
theorem searchLoop_eq {rest : List Nat} : ∀ {found : List Nat} {i fuel : Nat},
    occurrences jffs2Magic data = found ++ i :: rest → rest.length < fuel →
    searchLoop data fuel ((found ++ [i]).map Int.ofNat) =
      some ((occurrences jffs2Magic data).map Int.ofNat) := by
  induction rest with
  | nil =>
    intro found i fuel h hfuel
    obtain ⟨fuel, rfl⟩ := Nat.exists_eq_add_one_of_ne_zero (Nat.ne_of_gt hfuel)
    rw [searchLoop_round h, h]
    rfl
  | cons j rest ih =>
    intro found i fuel h hfuel
    obtain ⟨fuel, rfl⟩ := Nat.exists_eq_add_one_of_ne_zero (Nat.ne_of_gt (Nat.zero_lt_of_lt hfuel))
    rw [searchLoop_round h]
    refine ih (by rw [h, List.append_assoc]; rfl) ?_
    rw [List.length_cons] at hfuel
    omega

theorem length_occurrences_le (p s : List UInt8) : (occurrences p s).length ≤ s.length + 1 := by
  have := List.length_filter_le (fun i => decide (Occurs p s i)) (List.range (s.length + 1))
  rw [List.length_range] at this
  exact this

/-- **The search loop.** It ends; when the magic occurs, with the offsets at which it does. -/
theorem magicLocations_eq {fuel : Nat} (hfuel : data.length < fuel) :
    magicLocations data fuel = some (match occurrences jffs2Magic data with
      | [] => [-1]
      | i :: rest => (i :: rest).map Int.ofNat) := by
  have hfirst := find_nat data jffs2Magic 0
  rw [firstFrom_zero] at hfirst
  cases hocc : occurrences jffs2Magic data with
  | nil =>
    obtain ⟨fuel, rfl⟩ := Nat.exists_eq_add_one_of_ne_zero (Nat.ne_of_gt (Nat.zero_lt_of_lt hfuel))
    have hnone : firstFrom jffs2Magic data 1 = none := by rw [firstFrom, hocc]; rfl
    rw [hocc] at hfirst
    have hnext := find_nat data jffs2Magic 1
    rw [hnone] at hnext
    rw [magicLocations, show find data jffs2Magic 0 = -1 from hfirst, searchLoop]
    show (if find data jffs2Magic 1 = -1 then _ else _) = _
    rw [show find data jffs2Magic 1 = -1 from hnext, if_pos rfl]
  | cons i rest =>
    rw [hocc] at hfirst
    have hlen := length_occurrences_le jffs2Magic data
    rw [hocc, List.length_cons] at hlen
    have hloop := @searchLoop_eq data rest [] i fuel hocc (by omega)
    rw [magicLocations, show find data jffs2Magic 0 = i from hfirst]
    rw [hocc] at hloop
    exact hloop

/-! ## Decoding -/

/-- The masked type in the header at `p`. -/
def typeAt (data : List UInt8) (p : Nat) : Nat :=
  masked (littleEndian ((data.drop (p + 2)).take 2))

/-- What there is to report at `p`: a node of which nothing is missing. -/
def reportAt (data : List UInt8) (p : Nat) : Option Report :=
  if p + 12 ≤ data.length ∧ typeAt data p = JFFS2_NODETYPE_INODE ∧ p + 68 ≤ data.length then
    some (.inode p)
  else if p + 12 ≤ data.length ∧ typeAt data p = JFFS2_NODETYPE_DIRENT ∧
      p + 40 ≤ data.length then
    some (.dirent p)
  else none

theorem slice_nat (data : List UInt8) (p n : Nat) :
    slice data p (p + n) = (data.drop p).take n := by
  have hstart : bound data p = min p data.length := by
    rw [bound, if_neg (by omega), Int.toNat_natCast]
  have hstop : bound data (p + n) = min (p + n) data.length := by
    rw [bound, if_neg (by omega), ← Int.natCast_add, Int.toNat_natCast]
  rw [slice, hstart, hstop]
  apply List.ext_getElem?
  intro k
  simp only [List.getElem?_take, List.getElem?_drop]
  by_cases hk : p + k < data.length
  · have hmin : min p data.length = p := by omega
    have hlt : k < min (p + n) data.length - p ↔ k < n := by omega
    simp only [hmin, hlt]
  · have hnone : data[p + k]? = none := List.getElem?_eq_none (by omega)
    rw [if_neg (by omega), hnone]
    split <;> rfl

/-- Unpacking at `p` raises when bytes are missing. -/
theorem unpack_slice {format : List Code} {n : Nat} (hn : calcsize format = n) (hpos : 0 < n)
    (data : List UInt8) (p : Nat) : unpack format (slice data p (p + n)) =
      if p + n ≤ data.length then .ok (unpackFields format ((data.drop p).take n))
      else .error .structError := by
  have hlen : (slice data p (p + n)).length = n ↔ p + n ≤ data.length := by
    rw [slice_nat, List.length_take, List.length_drop]
    omega
  rw [unpack, hn]
  simp only [hlen]
  rw [slice_nat]

theorem header_fields (b : List UInt8) : ∃ magic nodeLength nodeCrc, unpackFields fmt b =
    [magic, .int (littleEndian ((b.drop 2).take 2)), nodeLength, nodeCrc] :=
  ⟨_, _, _, rfl⟩

/-- **One location.** -/
theorem decode_nat (data : List UInt8) (p : Nat) : decode data p =
    if p + 12 ≤ data.length then
      if typeAt data p = JFFS2_NODETYPE_INODE then
        if p + 68 ≤ data.length then .ok (some (.inode p)) else .error .structError
      else if typeAt data p = JFFS2_NODETYPE_DIRENT then
        if p + 40 ≤ data.length then .ok (some (.dirent p)) else .error .structError
      else .ok none
    else .error .structError := by
  have htype : (((data.drop p).take 12).drop 2).take 2 = (data.drop (p + 2)).take 2 := by
    rw [List.drop_take, List.take_take, List.drop_drop]
    rfl
  have hheader := unpack_slice (show calcsize fmt = 12 from rfl) (by omega) data p
  have hinode := unpack_slice (show calcsize inodefmt = 68 from rfl) (by omega) data p
  have hdirent := unpack_slice (show calcsize direntfmt = 40 from rfl) (by omega) data p
  obtain ⟨magic, nodeLength, nodeCrc, hfields⟩ := header_fields ((data.drop p).take 12)
  rw [htype] at hfields
  unfold decode
  rw [show unpack fmt (slice data p (p + 12)) = _ from hheader,
    show unpack inodefmt (slice data p (p + 68)) = _ from hinode,
    show unpack direntfmt (slice data p (p + 40)) = _ from hdirent, hfields]
  simp only [typeAt, bind, Except.bind]
  by_cases hlen : p + 12 ≤ data.length
  · simp only [hlen, if_true, Int.toNat_natCast]
    -- the header is there: an inode, a dirent, or another node
    by_cases hnode : masked (littleEndian ((data.drop (p + 2)).take 2)) = JFFS2_NODETYPE_INODE
    · simp only [hnode, if_true]
      split_ifs <;> rfl
    · simp only [hnode, if_false]
      by_cases hdir : masked (littleEndian ((data.drop (p + 2)).take 2)) = JFFS2_NODETYPE_DIRENT
      · simp only [hdir, if_true]
        split_ifs <;> rfl
      · simp only [hdir, if_false]
        rfl
  · simp only [hlen, if_false]

/-- The location has all the bytes that the script unpacks there. -/
def Whole (data : List UInt8) (p : Nat) : Prop :=
  p + 12 ≤ data.length ∧
    (typeAt data p = JFFS2_NODETYPE_INODE → p + 68 ≤ data.length) ∧
    (typeAt data p = JFFS2_NODETYPE_DIRENT → p + 40 ≤ data.length)

theorem decode_whole {p : Nat} (h : Whole data p) : decode data p = .ok (reportAt data p) := by
  obtain ⟨hlen, hinode, hdirent⟩ := h
  rw [decode_nat, if_pos hlen, reportAt]
  simp only [hlen, true_and]
  by_cases hi : typeAt data p = JFFS2_NODETYPE_INODE
  · simp [hi, hinode hi]
  · by_cases hd : typeAt data p = JFFS2_NODETYPE_DIRENT
    · have hne : JFFS2_NODETYPE_DIRENT ≠ JFFS2_NODETYPE_INODE := by decide
      simp [hd, hne, hdirent hd]
    · simp [hi, hd]

theorem whole_of_decode {p : Nat} {r : Option Report} (h : decode data p = .ok r) :
    Whole data p := by
  rw [decode_nat] at h
  split at h
  · next hlen =>
    refine ⟨hlen, fun hi => ?_, fun hd => ?_⟩
    · rw [if_pos hi] at h
      by_contra hno
      rw [if_neg hno] at h
      cases h
    · rw [if_neg (by rw [hd]; decide), if_pos hd] at h
      by_contra hno
      rw [if_neg hno] at h
      cases h
  · cases h

/-- The decoding loop does not raise when no location does. -/
theorem decodeLoop_whole : ∀ {l : List Nat}, (∀ p ∈ l, Whole data p) →
    decodeLoop data (l.map Int.ofNat) = ⟨l.filterMap (reportAt data), none⟩ := by
  intro l
  induction l with
  | nil => exact fun _ => rfl
  | cons p l ih =>
    intro h
    rw [List.map_cons, decodeLoop, show decode data (Int.ofNat p) = .ok (reportAt data p) from
      decode_whole (h p List.mem_cons_self)]
    simp only [ih fun q hq => h q (List.mem_cons_of_mem p hq)]
    cases hr : reportAt data p with
    | none => rw [List.filterMap_cons_none hr]; rfl
    | some r => rw [List.filterMap_cons_some hr]; rfl

theorem whole_of_decodeLoop : ∀ {l : List Nat}, (decodeLoop data (l.map Int.ofNat)).raised = none →
    ∀ p ∈ l, Whole data p := by
  intro l
  induction l with
  | nil => exact fun _ p hp => absurd hp List.not_mem_nil
  | cons p l ih =>
    intro h q hq
    rw [List.map_cons, decodeLoop] at h
    split at h
    · cases h
    · next report hdecode =>
      rcases List.mem_cons.1 hq with rfl | hq
      · exact whole_of_decode hdecode
      · exact ih h q hq

/-! ## The script -/

/-- The script ends, has found all occurrences of the magic, in order, and has reported the nodes
that are whole. -/
def ScansNodes (data : List UInt8) : Prop :=
  ∀ fuel, data.length < fuel → script data fuel =
    some ((occurrences jffs2Magic data).map Int.ofNat,
      ⟨(occurrences jffs2Magic data).filterMap (reportAt data), none⟩)

/-- **The node scan.** The script does what it is for exactly when the magic occurs and every
occurrence of it has the bytes that the script unpacks there. -/
theorem scansNodes_iff (data : List UInt8) : ScansNodes data ↔
    jffs2Magic <:+: data ∧ ∀ p, Occurs jffs2Magic data p → p + 12 ≤ data.length ∧
      (typeAt data p = JFFS2_NODETYPE_INODE → p + 68 ≤ data.length) ∧
      (typeAt data p = JFFS2_NODETYPE_DIRENT → p + 40 ≤ data.length) := by
  have hmem : ∀ p, p ∈ occurrences jffs2Magic data ↔ Occurs jffs2Magic data p :=
    fun p => mem_occurrences jffs2Magic_ne_nil
  have hfound : ∀ fuel, data.length < fuel → ∀ i rest,
      occurrences jffs2Magic data = i :: rest → script data fuel =
        some ((occurrences jffs2Magic data).map Int.ofNat,
          decodeLoop data ((occurrences jffs2Magic data).map Int.ofNat)) := by
    intro fuel hfuel i rest hocc
    rw [script, magicLocations_eq hfuel, hocc]
    rfl
  constructor
  · intro h
    cases hocc : occurrences jffs2Magic data with
    | nil =>
      -- the script has the -1 of the first search in its list
      have hscript := h (data.length + 1) (Nat.lt_succ_self _)
      rw [script, magicLocations_eq (Nat.lt_succ_self _), hocc] at hscript
      cases hscript
    | cons i rest =>
      have hscript := h (data.length + 1) (Nat.lt_succ_self _)
      rw [hfound _ (Nat.lt_succ_self _) i rest hocc] at hscript
      obtain ⟨-, hscan⟩ := Prod.mk.inj (Option.some.inj hscript)
      have hwhole := whole_of_decodeLoop (congrArg Scan.raised hscan)
      have hi : Occurs jffs2Magic data i := (hmem i).1 (by rw [hocc]; exact List.mem_cons_self)
      exact ⟨hi.isInfix, fun p hp => hwhole p ((hmem p).2 hp)⟩
  · rintro ⟨hmagic, hwhole⟩ fuel hfuel
    obtain ⟨i, hi⟩ := isInfix_iff_occurs.1 hmagic
    cases hocc : occurrences jffs2Magic data with
    | nil =>
      rw [← hmem, hocc] at hi
      cases hi
    | cons j rest =>
      rw [hfound fuel hfuel j rest hocc, decodeLoop_whole fun p hp => hwhole p ((hmem p).1 hp),
        hocc]

/-- A dirent of 40 bytes. -/
def sampleDirent : List UInt8 :=
  jffs2Magic ++ [0x01, 0xe0] ++ List.replicate 36 0

theorem scansNodes_iff_sample : ScansNodes sampleDirent := by
  have hocc : occurrences jffs2Magic sampleDirent = [0] := by decide
  refine (scansNodes_iff sampleDirent).2 ⟨by decide, fun p hp => ?_⟩
  rw [← mem_occurrences jffs2Magic_ne_nil, hocc, List.mem_singleton] at hp
  subst hp
  decide

/-- Without a magic the script goes on at the offset -1, and a magic at the end has no header: it
raises in both cases. -/
theorem not_scansNodes :
    (¬ ScansNodes [] ∧ script [] 1 = some ([-1], ⟨[], some .structError⟩)) ∧
      ¬ ScansNodes jffs2Magic ∧ script jffs2Magic 3 = some ([0], ⟨[], some .structError⟩) := by
  refine ⟨⟨fun h => ?_, by decide⟩, fun h => ?_, by decide⟩
  · exact absurd (h 1 (by decide)) (by decide)
  · exact absurd (h 3 (by decide)) (by decide)

end Rsva11001.FindJffs2Nodes
