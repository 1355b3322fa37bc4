import InlineCompletion.Text.Ranges
import InlineCompletion.Text.Basic

/-!
# Blank space

Blanks are the code points that separate words in any script, the four
information separators of ASCII among them.
-/

namespace InlineCompletion

def blankRanges : List (Nat × Nat) :=
  [(0x9, 0xD), (0x1C, 0x20), (0x85, 0x85), (0xA0, 0xA0), (0x1680, 0x1680),
    (0x2000, 0x200A),
   (0x2028, 0x2029), (0x202F, 0x202F), (0x205F, 0x205F), (0x3000, 0x3000)]

def isBlank (c : Char) : Bool := inRanges blankRanges c

namespace Text

def trim (skip : Char → Bool) (t : Text) : Text :=
  ((t.dropWhile skip).reverse.dropWhile skip).reverse

def trimEnd (skip : Char → Bool) (t : Text) : Text :=
  (t.reverse.dropWhile skip).reverse

def splitOn (sep : Char) : Text → List Text
  | [] => [[]]
  | c :: rest =>
      if c = sep then [] :: splitOn sep rest
      else
        match splitOn sep rest with
        | [] => [[c]]
        | part :: parts => (c :: part) :: parts

def join (sep : Text) : List Text → Text
  | [] => []
  | [t] => t
  | t :: rest => t ++ sep ++ join sep rest

def unifyLineEnds : Text → Text
  | [] => []
  | '\r' :: '\n' :: rest => '\n' :: unifyLineEnds rest
  | '\r' :: rest => '\n' :: unifyLineEnds rest
  | c :: rest => c :: unifyLineEnds rest

theorem splitOn_of_not_mem {sep : Char} {t : Text} (h : sep ∉ t) :
    splitOn sep t = [t] := by
  induction t with
  | nil => rfl
  | cons c rest ih =>
      unfold splitOn
      rw [if_neg fun heq : c = sep => h (heq ▸ List.mem_cons_self),
        ih fun hmem => h (List.mem_cons_of_mem c hmem)]

theorem splitOn_append {sep : Char} {s : Text} (h : sep ∉ s) (t : Text) :
    splitOn sep (s ++ sep :: t) = s :: splitOn sep t := by
  induction s with
  | nil =>
      show splitOn sep (sep :: t) = _
      rw [splitOn, if_pos rfl]
  | cons c rest ih =>
      show splitOn sep (c :: (rest ++ sep :: t)) = _
      rw [splitOn, if_neg fun heq : c = sep => h (heq ▸ List.mem_cons_self),
        ih fun hmem => h (List.mem_cons_of_mem c hmem)]

theorem not_mem_of_mem_splitOn {sep : Char} {t part : Text}
    (h : part ∈ splitOn sep t) :
    sep ∉ part := by
  induction t generalizing part with
  | nil =>
      rw [List.mem_singleton.mp h]
      exact List.not_mem_nil
  | cons c rest ih =>
      unfold splitOn at h
      split at h
      · rcases List.mem_cons.mp h with hnil | hpart
        · rw [hnil]
          exact List.not_mem_nil
        · exact ih hpart
      · next hc =>
          split at h
          · rw [List.mem_singleton.mp h]
            exact fun hmem => hc (List.mem_singleton.mp hmem).symm
          · next first parts hsplit =>
              rcases List.mem_cons.mp h with heq | hpart
              · rw [heq]
                intro hmem
                rcases List.mem_cons.mp hmem with hsep | hmore
                · exact hc hsep.symm
                · exact ih (hsplit ▸ List.mem_cons_self) hmore
              · exact ih (hsplit ▸ List.mem_cons_of_mem first hpart)

theorem splitOn_join {sep : Char} {parts : List Text} (hne : parts ≠ [])
    (h : ∀ part ∈ parts, sep ∉ part) :
    splitOn sep (join [sep] parts) = parts := by
  induction parts with
  | nil => exact absurd rfl hne
  | cons part more ih =>
      have hpart := h part List.mem_cons_self
      cases more with
      | nil => exact splitOn_of_not_mem hpart
      | cons next more =>
          have hmore :=
            ih (List.cons_ne_nil next more) fun p hp =>
            h p (List.mem_cons_of_mem part hp)
          show splitOn sep (part ++ [sep] ++ join [sep] (next :: more)) = _
          rw [List.append_assoc, List.singleton_append, splitOn_append hpart,
            hmore]

end Text
end InlineCompletion
