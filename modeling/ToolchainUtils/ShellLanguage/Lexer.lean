import Mathlib.Data.List.Basic

set_option autoImplicit false

-- The words and the operators of a command line, as far as it has no quotes, redirections,
-- comments and background jobs: none stands for a text with one of these.
namespace ToolchainUtils.ShellLanguage

inductive Token where
  | word (text : List Char)
  | andIf
  | bar
  | semicolon
deriving DecidableEq, Repr

-- Where the characters of a text stand: within $(...), behind the first character of an
-- operator, or anywhere else.
inductive Mode where
  | plain
  | substitution
  | ampersand
  | behindBar
deriving DecidableEq, Repr

structure Lexer where
  mode : Mode
  current : List Char
deriving DecidableEq, Repr

def start : Lexer := ⟨.plain, []⟩

def unsupported : List Char := ['\x22', '\x27', '\x5c', '\x60', '<', '>', ')', '#', '\n', '\r']

def flushed (current : List Char) : List Token := if current = [] then [] else [.word current]

def lexChar (state : Lexer) (c : Char) : Option (List Token × Lexer) :=
  if state.mode = .substitution then
    some ([], ⟨if c = ')' then .plain else .substitution, state.current ++ [c]⟩)
  else if state.mode = .ampersand then if c = '&' then some ([.andIf], start) else none
  else if c = ' ' ∨ c = '\t' then some (flushed state.current, start)
  else if c = ';' then some (flushed state.current ++ [.semicolon], start)
  else if c = '&' then some (flushed state.current, ⟨.ampersand, []⟩)
  else if c = '|' then
    if state.mode = .behindBar then none else some (flushed state.current ++ [.bar], ⟨.behindBar, []⟩)
  else if c = '(' then
    if state.current.getLast? = some '$' then some ([], ⟨.substitution, state.current ++ [c]⟩) else none
  else if c ∈ unsupported then none
  else some ([], ⟨.plain, state.current ++ [c]⟩)

def lexFrom (state : Lexer) : List Char → Option (List Token)
  | [] => if state.mode = .substitution ∨ state.mode = .ampersand then none else some (flushed state.current)
  | c :: rest => (lexChar state c).bind fun made => (lexFrom made.2 rest).map (made.1 ++ ·)

def lex (text : List Char) : Option (List Token) := lexFrom start text

-- One word and nothing else.
def IsWord (text : List Char) : Prop := lex text = some [.word text]

instance (text : List Char) : Decidable (IsWord text) := inferInstanceAs (Decidable (_ = _))

def metacharacters : List Char := unsupported ++ [' ', '\t', ';', '&', '|', '(']

theorem lex_cons (state next : Lexer) (c : Char) (rest : List Char) (made : List Token)
    (stepped : lexChar state c = some (made, next)) : lexFrom state (c :: rest) = (lexFrom next rest).map (made ++ ·) := by
  rw [lexFrom, stepped, Option.bind_some]

-- What comes before a blank does not matter to what comes after it.
theorem lex_before (state : Lexer) (first rest : List Char) (c : Char) (tokens : List Token)
    (found : lexFrom state first = some tokens)
    (closing : List Token)
    (closes : ∀ last : Lexer, last.mode ≠ .substitution → last.mode ≠ .ampersand →
      lexChar last c = some (flushed last.current ++ closing, start)) :
    lexFrom state (first ++ c :: rest) = (lex rest).map (tokens ++ closing ++ ·) := by
  induction first generalizing state tokens with
  | nil =>
      rw [lexFrom] at found
      obtain ⟨outside, same⟩ := Option.ite_none_left_eq_some.mp found
      obtain ⟨noSubstitution, noAmpersand⟩ := not_or.mp outside
      cases same
      exact lex_cons state start c rest _ (closes state noSubstitution noAmpersand)
  | cons d first ih =>
      rw [lexFrom] at found
      obtain ⟨made, stepped, found⟩ := Option.bind_eq_some_iff.mp found
      obtain ⟨later, behind, rfl⟩ := Option.map_eq_some_iff.mp found
      rw [List.cons_append, lex_cons state made.2 d _ made.1 stepped, ih made.2 later behind, Option.map_map]
      refine congrArg (fun f => Option.map f (lex rest)) (funext fun tokens => ?_)
      rw [Function.comp_apply, List.append_assoc, List.append_assoc, List.append_assoc]

theorem lex_blank (first rest : List Char) (tokens : List Token) (found : lex first = some tokens) :
    lex (first ++ ' ' :: rest) = (lex rest).map (tokens ++ ·) := by
  have closes : ∀ last : Lexer, last.mode ≠ .substitution → last.mode ≠ .ampersand →
      lexChar last ' ' = some (flushed last.current ++ [], start) := by
    intro last noSubstitution noAmpersand
    rw [lexChar, if_neg noSubstitution, if_neg noAmpersand, if_pos (.inl rfl), List.append_nil]
  rw [lex, lex_before start first rest ' ' tokens found [] closes, List.append_nil]

theorem lex_semicolon (first rest : List Char) (tokens : List Token) (found : lex first = some tokens) :
    lex (first ++ ';' :: rest) = (lex rest).map (tokens ++ [.semicolon] ++ ·) := by
  refine lex_before start first rest ';' tokens found [.semicolon] fun last noSubstitution noAmpersand => ?_
  rw [lexChar, if_neg noSubstitution, if_neg noAmpersand, if_neg (by decide), if_pos rfl]

-- A word without a metacharacter is one word.
theorem plain_from (state : Lexer) (text : List Char) (mode : state.mode = .plain) (plain : ∀ c ∈ text, c ∉ metacharacters) :
    lexFrom state text = some (flushed (state.current ++ text)) := by
  induction text generalizing state with
  | nil => rw [lexFrom, if_neg (by simp [mode]), List.append_nil]
  | cons c rest ih =>
      obtain ⟨here, later⟩ := List.forall_mem_cons.mp plain
      have stepped : lexChar state c = some ([], ⟨.plain, state.current ++ [c]⟩) := by
        rw [metacharacters, List.mem_append, not_or] at here
        simp only [List.mem_cons, List.not_mem_nil, or_false, not_or] at here
        obtain ⟨supported, blank, tab, semicolon, ampersand, bar, bracket⟩ := here
        rw [lexChar, if_neg (by simp [mode]), if_neg (by simp [mode]), if_neg (by simp [blank, tab]), if_neg semicolon,
          if_neg ampersand, if_neg bar, if_neg bracket, if_neg (by simpa using supported)]
      rw [lex_cons state _ c rest [] stepped, ih ⟨.plain, state.current ++ [c]⟩ rfl later, Option.map_some, List.nil_append,
        List.append_assoc, List.singleton_append]

theorem plain_is_word (text : List Char) (filled : text ≠ []) (plain : ∀ c ∈ text, c ∉ metacharacters) : IsWord text := by
  rw [IsWord, lex, plain_from start text rfl plain, start, List.nil_append, flushed, if_neg filled]

end ToolchainUtils.ShellLanguage
