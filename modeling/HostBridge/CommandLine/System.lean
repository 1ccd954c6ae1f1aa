/-!
# What a system holds

The folders, files and links that a usual system has at fixed locations, as far as a program that
reads files there could notice them. No file among them holds a JSON object or array, so their texts
do not matter; files without an end, and those that cannot be opened, are left out.
-/

set_option autoImplicit false

namespace HostBridge.CommandLine

/-- The way from the root to a file or folder, name by name. -/
abbrev Location := List String

namespace Location

/-- The things with the given names in a folder. -/
def within (folder : Location) (names : List String) : List Location :=
  names.map fun name => folder ++ [name]

/-- The folder in which the program runs. A path cannot spell its name, which the program does not
know. -/
def home : Location := ["tmp", "/"]

/-- The folder that tells of the running program. A path can only reach it by a link. -/
def process : Location := ["proc", "/"]

/-- Folders of a system. -/
def systemFolders : List Location :=
  within [] ["boot", "dev", "etc", "home", "media", "mnt", "opt", "proc", "root", "run", "srv", "sys",
      "tmp", "usr", "var"]
    ++ within ["dev"] ["pts", "shm"]
    ++ within ["etc"] ["alternatives", "apt", "cron.d", "default", "dpkg", "init.d", "ld.so.conf.d",
      "opt", "pam.d", "profile.d", "security", "skel", "ssl", "systemd"]
    ++ within ["etc", "ssl"] ["certs"]
    ++ within ["proc"] ["/", "bus", "driver", "fs", "irq", "sys", "tty"]
    ++ within ["proc", "sys"] ["fs", "kernel", "net", "vm"]
    ++ within process ["attr", "fd", "fdinfo", "map_files", "net", "ns", "task"]
    ++ within ["run"] ["lock"]
    ++ within ["sys"] ["block", "bus", "class", "dev", "devices", "firmware", "fs", "kernel", "module",
      "power"]
    ++ within ["usr"] ["bin", "games", "include", "lib", "lib64", "local", "sbin", "share", "src"]
    ++ within ["usr", "lib"] ["apt", "dpkg", "init", "x86_64-linux-gnu"]
    ++ within ["usr", "local"] ["bin", "etc", "games", "include", "lib", "sbin", "share", "src"]
    ++ within ["usr", "share"] ["bash-completion", "doc", "info", "man", "misc", "zoneinfo"]
    ++ within ["var"] ["backups", "cache", "lib", "local", "log", "mail", "opt", "spool", "tmp"]
    ++ within ["var", "cache"] ["apt", "debconf"]
    ++ within ["var", "lib"] ["apt", "dpkg"]
    ++ within ["var", "log"] ["apt"]

/-- Files of a system. -/
def systemFiles : List Location :=
  within ["dev"] ["null"]
    ++ within ["etc"] ["bash.bashrc", "debconf.conf", "debian_version", "environment", "fstab",
      "gai.conf", "group", "gshadow", "host.conf", "hostname", "hosts", "issue", "issue.net",
      "ld.so.cache", "ld.so.conf", "libaudit.conf", "login.defs", "nsswitch.conf", "pam.conf",
      "passwd", "profile", "resolv.conf", "shadow", "shells", "subgid", "subuid", "xattr.conf"]
    ++ within ["proc"] ["cmdline", "cpuinfo", "devices", "diskstats", "filesystems", "interrupts",
      "iomem", "ioports", "loadavg", "meminfo", "misc", "partitions", "stat", "swaps", "uptime",
      "version", "vmstat", "zoneinfo"]
    ++ within ["proc", "sys", "kernel"] ["hostname", "osrelease", "ostype", "pid_max", "version"]
    ++ within process ["auxv", "cgroup", "cmdline", "comm", "environ", "io", "limits", "maps",
      "mountinfo", "mounts", "oom_score", "oom_score_adj", "sched", "smaps", "stat", "statm",
      "status", "wchan"]
    ++ within process ["exe"]
    ++ within (process ++ ["fd"]) ["0"]
    ++ within ["root"] [".bashrc", ".profile"]
    ++ within ["usr", "bin"] ["[", "awk", "basename", "bash", "cat", "chmod", "chown", "cp", "cut",
      "dash", "date", "dd", "df", "diff", "dirname", "du", "echo", "env", "expr", "false", "find",
      "getent", "grep", "gunzip", "gzip", "head", "hostname", "id", "kill", "ldd", "ln", "login",
      "ls", "mkdir", "mount", "mv", "nice", "nohup", "od", "perl", "printenv", "printf", "ps", "pwd",
      "readlink", "realpath", "rm", "rmdir", "sed", "seq", "sh", "sha256sum", "sleep", "sort",
      "stat", "stty", "su", "sync", "tail", "tar", "tee", "test", "timeout", "touch", "tr", "true",
      "tty", "uname", "uniq", "wc", "which", "whoami", "xargs", "yes"]
    ++ within ["usr", "lib"] ["os-release"]
    ++ within ["usr", "lib", "x86_64-linux-gnu"] ["ld-linux-x86-64.so.2", "libc.so.6", "libm.so.6"]
    ++ within ["usr", "lib64"] ["ld-linux-x86-64.so.2"]

/-- Links of a system, each with the location to which it leads. -/
def systemLinks : List (Location × Location) :=
  [(["bin"], ["usr", "bin"]), (["lib"], ["usr", "lib"]), (["lib64"], ["usr", "lib64"]),
    (["sbin"], ["usr", "sbin"]), (["dev", "fd"], ["proc", "self", "fd"]),
    (["dev", "stdin"], ["proc", "self", "fd", "0"]), (["etc", "mtab"], ["proc", "mounts"]),
    (["etc", "os-release"], ["usr", "lib", "os-release"]), (["proc", "self"], process),
    (["proc", "thread-self"], process), (["proc", "mounts"], ["proc", "self", "mounts"]),
    (["proc", "net"], ["proc", "self", "net"]), (process ++ ["cwd"], home),
    (process ++ ["root"], []), (["var", "lock"], ["run", "lock"]), (["var", "run"], ["run"])]

end Location

end HostBridge.CommandLine
