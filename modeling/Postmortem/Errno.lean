import Postmortem.Bytes

/-! # Error numbers

The numbers by which the operating system says why a call failed, with their names and the texts
that go with the ones this library can meet.
-/

namespace Postmortem

/-- An error number; 0 stands for every number that has no name. -/
structure Errno where
  number : Nat
  deriving Repr, DecidableEq, Inhabited

namespace Errno

/-- Every error number of Linux with its name. -/
def names : List (Nat × String) :=
  [(1, "EPERM"), (2, "ENOENT"), (3, "ESRCH"), (4, "EINTR"), (5, "EIO"), (6, "ENXIO"),
   (7, "E2BIG"), (8, "ENOEXEC"), (9, "EBADF"), (10, "ECHILD"), (11, "EAGAIN"), (12, "ENOMEM"),
   (13, "EACCES"), (14, "EFAULT"), (15, "ENOTBLK"), (16, "EBUSY"), (17, "EEXIST"), (18, "EXDEV"),
   (19, "ENODEV"), (20, "ENOTDIR"), (21, "EISDIR"), (22, "EINVAL"), (23, "ENFILE"),
   (24, "EMFILE"), (25, "ENOTTY"), (26, "ETXTBSY"), (27, "EFBIG"), (28, "ENOSPC"),
   (29, "ESPIPE"), (30, "EROFS"), (31, "EMLINK"), (32, "EPIPE"), (33, "EDOM"), (34, "ERANGE"),
   (35, "EDEADLK"), (36, "ENAMETOOLONG"), (37, "ENOLCK"), (38, "ENOSYS"), (39, "ENOTEMPTY"),
   (40, "ELOOP"), (42, "ENOMSG"), (43, "EIDRM"), (44, "ECHRNG"), (45, "EL2NSYNC"),
   (46, "EL3HLT"), (47, "EL3RST"), (48, "ELNRNG"), (49, "EUNATCH"), (50, "ENOCSI"),
   (51, "EL2HLT"), (52, "EBADE"), (53, "EBADR"), (54, "EXFULL"), (55, "ENOANO"), (56, "EBADRQC"),
   (57, "EBADSLT"), (59, "EBFONT"), (60, "ENOSTR"), (61, "ENODATA"), (62, "ETIME"),
   (63, "ENOSR"), (64, "ENONET"), (65, "ENOPKG"), (66, "EREMOTE"), (67, "ENOLINK"), (68, "EADV"),
   (69, "ESRMNT"), (70, "ECOMM"), (71, "EPROTO"), (72, "EMULTIHOP"), (73, "EDOTDOT"),
   (74, "EBADMSG"), (75, "EOVERFLOW"), (76, "ENOTUNIQ"), (77, "EBADFD"), (78, "EREMCHG"),
   (79, "ELIBACC"), (80, "ELIBBAD"), (81, "ELIBSCN"), (82, "ELIBMAX"), (83, "ELIBEXEC"),
   (84, "EILSEQ"), (85, "ERESTART"), (86, "ESTRPIPE"), (87, "EUSERS"), (88, "ENOTSOCK"),
   (89, "EDESTADDRREQ"), (90, "EMSGSIZE"), (91, "EPROTOTYPE"), (92, "ENOPROTOOPT"),
   (93, "EPROTONOSUPPORT"), (94, "ESOCKTNOSUPPORT"), (95, "EOPNOTSUPP"), (96, "EPFNOSUPPORT"),
   (97, "EAFNOSUPPORT"), (98, "EADDRINUSE"), (99, "EADDRNOTAVAIL"), (100, "ENETDOWN"),
   (101, "ENETUNREACH"), (102, "ENETRESET"), (103, "ECONNABORTED"), (104, "ECONNRESET"),
   (105, "ENOBUFS"), (106, "EISCONN"), (107, "ENOTCONN"), (108, "ESHUTDOWN"),
   (109, "ETOOMANYREFS"), (110, "ETIMEDOUT"), (111, "ECONNREFUSED"), (112, "EHOSTDOWN"),
   (113, "EHOSTUNREACH"), (114, "EALREADY"), (115, "EINPROGRESS"), (116, "ESTALE"),
   (117, "EUCLEAN"), (118, "ENOTNAM"), (119, "ENAVAIL"), (120, "EISNAM"), (121, "EREMOTEIO"),
   (122, "EDQUOT"), (123, "ENOMEDIUM"), (124, "EMEDIUMTYPE"), (125, "ECANCELED"),
   (126, "ENOKEY"), (127, "EKEYEXPIRED"), (128, "EKEYREVOKED"), (129, "EKEYREJECTED"),
   (130, "EOWNERDEAD"), (131, "ENOTRECOVERABLE"), (132, "ERFKILL"), (133, "EHWPOISON")]

def notFound : Errno := ⟨2⟩
def interrupted : Errno := ⟨4⟩
def inputOutput : Errno := ⟨5⟩
def argumentsTooLong : Errno := ⟨7⟩
def notExecutable : Errno := ⟨8⟩
def badDescriptor : Errno := ⟨9⟩
def noChild : Errno := ⟨10⟩
def outOfMemory : Errno := ⟨12⟩
def accessDenied : Errno := ⟨13⟩
def busy : Errno := ⟨16⟩
def alreadyExists : Errno := ⟨17⟩
def notDirectory : Errno := ⟨20⟩
def isDirectory : Errno := ⟨21⟩
def invalid : Errno := ⟨22⟩
def brokenPipe : Errno := ⟨32⟩
def nameTooLong : Errno := ⟨36⟩

/-- The error with this number, or 0 if there is none. -/
def ofNumber (n : Int) : Errno :=
  match names.lookup n.toNat with
  | some _ => if 0 ≤ n then ⟨n.toNat⟩ else ⟨0⟩
  | none => ⟨0⟩

/-- The symbolic name. -/
def name (e : Errno) : String :=
  (names.lookup e.number).getD "UnknownErrno"

/-- What went wrong, in words. -/
def text (e : Errno) : String :=
  match e.number with
  | 2 => "No such file or directory"
  | 5 => "Input/output error"
  | 8 => "Exec format error"
  | 9 => "Bad file descriptor"
  | 10 => "No child processes"
  | 12 => "Cannot allocate memory"
  | 13 => "Permission denied"
  | 16 => "Device or resource busy"
  | 17 => "File exists"
  | 20 => "Not a directory"
  | 21 => "Is a directory"
  | 22 => "Invalid argument"
  | 32 => "Broken pipe"
  | 36 => "File name too long"
  | n => "Unknown error " ++ toString n

/-- The error as file operations report it. -/
def osMessage (e : Errno) : String :=
  e.text ++ " (os error " ++ toString e.number ++ ")"

/-- The name and the words. -/
def describe (e : Errno) : String := e.name ++ ": " ++ e.text

end Errno

end Postmortem
