import FPApp.SessionProofs
import FPApp.LockProofs
import FPApp.TrapProofs
import FPApp.ProfileNameProofs
import FPApp.ProfilePictureProofs
import FPApp.ProfileSaveProofs
import FPApp.ScrollProofs
import FPApp.FlightProofs
import FPApp.StallProofs
import FPApp.AgeProofs
import FPApp.ReuseProofs
import FPApp.CellProofs
import FPApp.SearchProofs
import FPApp.SegueProofs
import FPApp.FieldOperationProofs
import FPApp.ObjectSaveProofs
import FPApp.SaveRunProofs
import FPApp.SaveReplicaProofs
import FPApp.PromiseProofs
import FPApp.TaskEndProofs
import FPApp.DeepSaveProofs
import FPApp.DirtyChildProofs
import FPApp.ChangeSetCodecProofs
import FPApp.CurrentUserDiskProofs
import FPApp.CurrentUserLaunchProofs
