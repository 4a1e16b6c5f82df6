import ToolchainUtils.PyString

set_option autoImplicit false

namespace ToolchainUtils.PosixPath

open PyString

-- os.path.join of two paths and of any number of them.
def joinTwo (path name : Text) : Text :=
  if name.head? = some '/' then name
  else if path = [] ∨ path.getLast? = some '/' then path ++ name else path ++ '/' :: name

def join (path : Text) (names : List Text) : Text := names.foldl joinTwo path

end ToolchainUtils.PosixPath
