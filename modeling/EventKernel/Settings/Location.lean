set_option autoImplicit false

/-! Where the files with settings are. -/

namespace EventKernel.Settings

/-- A name within a directory. The empty directory adds nothing before it. -/
def within (directory name : String) : String :=
  if directory.isEmpty || directory.endsWith "/" then directory ++ name
  else directory ++ "/" ++ name

/-- The directory of the user's settings: in the directory that the environment names for
them if its path is absolute, else in the home directory. -/
def userDirectory (home : String) (configured : Option String) : String :=
  let base := match configured with
    | some directory => if directory.startsWith "/" then directory else within home ".config"
    | none => within home ".config"
  within base "kairos"

def userFile (home : String) (configured : Option String) : String :=
  within (userDirectory home configured) "config.toml"

def projectFile (directory : String) : String := within directory "kairos.toml"

def localFile (directory : String) : String := within directory "kairos.local.toml"

end EventKernel.Settings
