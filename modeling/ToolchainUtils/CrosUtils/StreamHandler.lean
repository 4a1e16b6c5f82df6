import ToolchainUtils.PyString

set_option autoImplicit false

namespace ToolchainUtils.CrosUtils

open PyString

-- notify_line: the lines that are passed to the line consumer, and the buffer behind them.
def notifyLine (buf : Text) : List Text × Text :=
  match find ['\n'] buf with
  | none => ([], buf)
  | some p =>
      if inside : p < buf.length - 1 then
        let later := notifyLine (buf.drop (p + 1))
        (buf.take (p + 1) :: later.1, later.2)
      else ([buf.take (p + 1)], [])
termination_by buf.length
decreasing_by
  rw [List.length_drop]
  omega

-- read_and_notify_line, with the text that os.read gives.
def readAndNotifyLine (buf t : Text) : List Text × Text := notifyLine (buf ++ t)

-- The last line may not end with a newline.
def notifyEos (buf : Text) : List Text := if buf ≠ [] then [buf] else []

-- What one handler passes on, up to the end of its stream.
def deliveredFrom (buf : Text) : List Text → List Text
  | [] => notifyEos buf
  | t :: rest => (readAndNotifyLine buf t).1 ++ deliveredFrom (readAndNotifyLine buf t).2 rest

def delivered (chunks : List Text) : List Text := deliveredFrom [] chunks

theorem notify_line_open (buf : Text) (oneLine : '\n' ∉ buf) : notifyLine buf = ([], buf) := by
  rw [notifyLine]
  simp only [find_char_absent '\n' buf oneLine]

theorem notify_line_line (body rest : Text) (oneLine : '\n' ∉ body) :
    notifyLine (body ++ '\n' :: rest) = ((body ++ ['\n']) :: (notifyLine rest).1, (notifyLine rest).2) := by
  have front : (body ++ '\n' :: rest).take (body.length + 1) = body ++ ['\n'] := by
    rw [← List.singleton_append, ← List.append_assoc]
    exact List.take_left' (by rw [List.length_append, List.length_singleton])
  have behind : (body ++ '\n' :: rest).drop (body.length + 1) = rest := by
    rw [← List.singleton_append, ← List.append_assoc]
    exact List.drop_left' (by rw [List.length_append, List.length_singleton])
  rw [notifyLine]
  simp only [find_char_first '\n' body rest oneLine, front, behind, List.length_append, List.length_cons]
  cases rest with
  | nil => rw [dif_neg (by rw [List.length_nil]; omega), notify_line_open [] List.not_mem_nil]
  | cons c others => rw [dif_pos (by rw [List.length_cons]; omega)]

-- What is passed on with the buffer behind it are the lines of the text, as far as they have ended.
theorem notify_line_readlines (buf : Text) :
    '\n' ∉ (notifyLine buf).2 ∧ ∀ rest, (notifyLine buf).1 ++ readlines ((notifyLine buf).2 ++ rest) = readlines (buf ++ rest) := by
  induction buf using lines_induction with
  | last buf oneLine =>
      rw [notify_line_open buf oneLine]
      exact ⟨oneLine, fun _ => rfl⟩
  | line body later oneLine ih =>
      rw [notify_line_line body later oneLine]
      refine ⟨ih.1, fun rest => ?_⟩
      dsimp only
      rw [List.append_assoc body, List.cons_append, List.cons_append, readlines_line body _ oneLine, ← ih.2 rest]

theorem delivered_from_readlines (buf : Text) (oneLine : '\n' ∉ buf) (chunks : List Text) :
    deliveredFrom buf chunks = readlines (buf ++ chunks.flatten) := by
  induction chunks generalizing buf with
  | nil =>
      rw [deliveredFrom, notifyEos, List.flatten_nil, List.append_nil, readlines_last buf oneLine]
      by_cases empty : buf = []
      · rw [if_pos empty, if_neg (not_not.mpr empty)]
      · rw [if_neg empty, if_pos empty]
  | cons t rest ih =>
      obtain ⟨left, lines⟩ := notify_line_readlines (buf ++ t)
      rw [deliveredFrom, readAndNotifyLine, ih _ left, lines, List.flatten_cons, List.append_assoc]

theorem delivered_readlines (chunks : List Text) : delivered chunks = readlines chunks.flatten :=
  delivered_from_readlines [] List.not_mem_nil chunks

theorem line_delivery (chunks : List Text) :
    (delivered chunks).flatten = chunks.flatten ∧
      (∀ line ∈ delivered chunks, IsLine line) ∧
      (∀ line ∈ (delivered chunks).dropLast, line.getLast? = some '\n') ∧
      ∀ others : List Text, others.flatten = chunks.flatten → delivered others = delivered chunks := by
  rw [delivered_readlines]
  refine ⟨readlines_flatten _, readlines_are_lines _, readlines_end _, fun others same => ?_⟩
  rw [delivered_readlines, same]

end ToolchainUtils.CrosUtils
