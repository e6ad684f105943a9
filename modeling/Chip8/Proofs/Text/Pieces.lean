import Chip8.Text.Blank

/-!
# Cutting what was put together

Texts that are joined by a separator come apart again, and blanks around a text are dropped.

* (separators) texts come apart where they were joined (`pieces_join`), so `pieces` undoes joining texts that are free
  of the separator (`pieces_intercalate`), and `cut` finds nothing in such a text;
* (blanks) a text that neither begins nor ends with a blank is what remains of it when blanks in front of it are
  dropped (`strip_append`);
* (words) the first word ends at the first blank (`firstWord_append`).
-/

namespace Chip8.Text

/-! ### Separators -/

theorem pieces_ne_nil (sep : Char) (s : List Char) : pieces sep s ≠ [] := by
  cases s with
  | nil => simp [pieces]
  | cons c cs =>
    unfold pieces
    split
    · simp
    · split <;> simp

theorem pieces_of_not_mem {sep : Char} {s : List Char} (h : sep ∉ s) : pieces sep s = [s] := by
  induction s with
  | nil => rfl
  | cons c cs ih =>
    have hc : c ≠ sep := (List.ne_of_not_mem_cons h).symm
    have hcs : sep ∉ cs := List.not_mem_of_not_mem_cons h
    rw [pieces, if_neg hc, ih hcs]

/-- Texts that are joined by a separator come apart where they were joined. -/
theorem pieces_join (sep : Char) (s t : List Char) : pieces sep (s ++ sep :: t) = pieces sep s ++ pieces sep t := by
  induction s with
  | nil => simp [pieces]
  | cons c cs ih =>
    rw [List.cons_append, pieces, pieces, ih]
    split
    · rfl
    · cases hp : pieces sep cs with
      | nil => exact absurd hp (pieces_ne_nil sep cs)
      | cons p ps => rfl

theorem pieces_append {sep : Char} {s : List Char} (h : sep ∉ s) (rest : List Char) :
    pieces sep (s ++ sep :: rest) = s :: pieces sep rest := by
  rw [pieces_join, pieces_of_not_mem h, List.singleton_append]

/-- Joined texts that are free of the separator come apart again. -/
theorem pieces_intercalate {sep : Char} {texts : List (List Char)} (hne : texts ≠ [])
    (h : ∀ s ∈ texts, sep ∉ s) : pieces sep ([sep].intercalate texts) = texts := by
  induction texts with
  | nil => exact absurd rfl hne
  | cons s rest ih =>
    have hs := h s (List.mem_cons_self ..)
    cases rest with
    | nil =>
      rw [List.intercalate_singleton]
      exact pieces_of_not_mem hs
    | cons s' rest =>
      have hrest := ih (by simp) fun t ht => h t (List.mem_cons_of_mem _ ht)
      rw [List.intercalate_cons_cons, List.append_assoc, List.singleton_append, pieces_append hs, hrest]

theorem cut_of_not_mem {sep : Char} {s : List Char} (h : sep ∉ s) : cut sep s = (s, none) := by
  induction s with
  | nil => rfl
  | cons c cs ih =>
    have hc : c ≠ sep := (List.ne_of_not_mem_cons h).symm
    have hcs : sep ∉ cs := List.not_mem_of_not_mem_cons h
    rw [cut, if_neg hc, ih hcs]

theorem cut_append {sep : Char} {s : List Char} (h : sep ∉ s) (rest : List Char) :
    cut sep (s ++ sep :: rest) = (s, some rest) := by
  induction s with
  | nil => rw [List.nil_append, cut, if_pos rfl]
  | cons c cs ih =>
    have hc : c ≠ sep := (List.ne_of_not_mem_cons h).symm
    have hcs : sep ∉ cs := List.not_mem_of_not_mem_cons h
    rw [List.cons_append, cut, if_neg hc, ih hcs]

theorem not_mem_cut (sep : Char) (s : List Char) : sep ∉ (cut sep s).1 := by
  induction s with
  | nil => nofun
  | cons c cs ih =>
    rw [cut]
    split
    · nofun
    · rename_i hc
      simpa [Ne.symm hc] using ih

theorem mem_of_cut {sep : Char} {s tail : List Char} (h : (cut sep s).2 = some tail) : sep ∈ s := by
  refine Classical.byContradiction fun hsep => ?_
  rw [cut_of_not_mem hsep] at h
  cases h

theorem mem_pieces {sep c : Char} {s : List Char} (h : c ∈ s) (hc : c ≠ sep) : ∃ p ∈ pieces sep s, c ∈ p := by
  induction s with
  | nil => cases h
  | cons d ds ih =>
    rw [pieces]
    by_cases hd : d = sep
    · have hmem : c ∈ ds := (List.mem_cons.1 h).resolve_left fun he => hc (he.trans hd)
      obtain ⟨p, hp, hcp⟩ := ih hmem
      rw [if_pos hd]
      exact ⟨p, List.mem_cons_of_mem _ hp, hcp⟩
    · rw [if_neg hd]
      cases hp : pieces sep ds with
      | nil => exact absurd hp (pieces_ne_nil sep ds)
      | cons q qs =>
        dsimp only
        rcases List.mem_cons.1 h with rfl | hmem
        · exact ⟨c :: q, List.mem_cons_self, List.mem_cons_self⟩
        · obtain ⟨p, hmem, hcp⟩ := ih hmem
          rw [hp] at hmem
          rcases List.mem_cons.1 hmem with rfl | hmem
          · exact ⟨d :: p, List.mem_cons_self, List.mem_cons_of_mem _ hcp⟩
          · exact ⟨p, List.mem_cons_of_mem _ hmem, hcp⟩

/-! ### Blanks -/

theorem stripLeft_cons {c : Char} (h : isBlank c = false) (s : List Char) : stripLeft (c :: s) = c :: s := by
  unfold stripLeft
  rw [List.dropWhile_cons, h]
  rfl

theorem stripLeft_append (blanks : List Char) (hb : ∀ c ∈ blanks, isBlank c = true) (s : List Char) :
    stripLeft (blanks ++ s) = stripLeft s :=
  List.dropWhile_append_of_pos hb

/-- Blanks in front of a text are dropped, and nothing else if the text has no blank at its ends. -/
theorem strip_append (blanks : List Char) {s : List Char} (hb : ∀ c ∈ blanks, isBlank c = true)
    (hfirst : ∀ c, s.head? = some c → isBlank c = false) (hlast : ∀ c, s.getLast? = some c → isBlank c = false) :
    strip (blanks ++ s) = s := by
  have hleft : stripLeft s = s := by
    cases s with
    | nil => rfl
    | cons c cs => exact stripLeft_cons (hfirst c rfl) cs
  have hright : stripLeft s.reverse = s.reverse := by
    cases hs : s.reverse with
    | nil => rfl
    | cons c cs =>
      have hc : s.getLast? = some c := by rw [← List.head?_reverse, hs]; rfl
      exact stripLeft_cons (hlast c hc) cs
  unfold strip
  rw [stripLeft_append blanks hb, hleft, hright, List.reverse_reverse]

theorem head?_stripLeft {s : List Char} {c : Char} (h : (stripLeft s).head? = some c) : isBlank c = false := by
  have hnot := List.head?_dropWhile_not isBlank s
  unfold stripLeft at h
  rw [h] at hnot
  simpa using hnot

theorem getLast?_strip {s : List Char} {c : Char} (h : (strip s).getLast? = some c) : isBlank c = false := by
  unfold strip at h
  rw [List.getLast?_reverse] at h
  exact head?_stripLeft h

theorem head?_strip {s : List Char} {c : Char} (h : (strip s).head? = some c) : isBlank c = false := by
  -- what is dropped at the right end leaves a prefix
  have hprefix : strip s <+: stripLeft s := by
    have hsuffix := List.dropWhile_suffix isBlank (l := (stripLeft s).reverse)
    simpa [strip, stripLeft] using List.reverse_prefix.2 hsuffix
  obtain ⟨rest, hrest⟩ := hprefix
  refine head?_stripLeft (s := s) ?_
  rw [← hrest, List.head?_append, h]
  rfl

theorem strip_strip (s : List Char) : strip (strip s) = strip s :=
  strip_append [] (by simp) (fun _ hc => head?_strip hc) (fun _ hc => getLast?_strip hc)

theorem mem_of_mem_strip {c : Char} {s : List Char} (h : c ∈ strip s) : c ∈ s := by
  unfold strip stripLeft at h
  have hback := (List.dropWhile_suffix isBlank).subset (List.mem_reverse.1 h)
  exact (List.dropWhile_suffix isBlank).subset (List.mem_reverse.1 hback)

theorem strip_cons_blank {c : Char} (h : isBlank c = true) (s : List Char) : strip (c :: s) = strip s := by
  unfold strip stripLeft
  rw [List.dropWhile_cons, h]
  rfl

theorem firstWord_append {word : List Char} (hne : word ≠ []) (hw : ∀ c ∈ word, isBlank c = false)
    (rest : List Char) (hrest : ∀ c, rest.head? = some c → isBlank c = true) :
    firstWord (word ++ rest) = word ∧ afterFirstWord (word ++ rest) = stripLeft rest := by
  have hleft : stripLeft (word ++ rest) = word ++ rest := by
    cases word with
    | nil => exact absurd rfl hne
    | cons c cs => exact stripLeft_cons (hw c (List.mem_cons_self ..)) (cs ++ rest)
  have hword : ∀ c ∈ word, (!isBlank c) = true := fun c hc => by rw [hw c hc]; rfl
  unfold firstWord afterFirstWord
  rw [hleft, List.takeWhile_append_of_pos hword, List.dropWhile_append_of_pos hword]
  cases rest with
  | nil => simp
  | cons c cs =>
    have hc := hrest c rfl
    simp [hc]

end Chip8.Text
