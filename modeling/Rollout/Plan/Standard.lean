import Rollout.Plan.Document

/-! The plan that is used when no plan file is found: the destinations on the shared hosts. -/

namespace Rollout.Plan

def standardText : String := "
[remotes.basicssh]
host = \"admin-eu.playmonumenta.com\"
port = 8822
user = \"epic\"

[remotes.adminssh]
host = \"admin-eu.playmonumenta.com\"
port = 9922
user = \"epic\"

[destinations.dev1]
remote = \"basicssh\"
mode = \"overwrite\"
paths = [\"/home/epic/dev1_shard_plugins\"]
lock = \x7b domain = \"build\", shard = \"dev1\", minutes = 30 \x7d

[destinations.dev2]
remote = \"basicssh\"
mode = \"overwrite\"
paths = [\"/home/epic/dev2_shard_plugins\"]
lock = \x7b domain = \"build\", shard = \"dev2\", minutes = 30 \x7d

[destinations.dev3]
remote = \"basicssh\"
mode = \"overwrite\"
paths = [\"/home/epic/dev3_shard_plugins\"]
lock = \x7b domain = \"build\", shard = \"dev3\", minutes = 30 \x7d

[destinations.dev4]
remote = \"basicssh\"
mode = \"overwrite\"
paths = [\"/home/epic/dev4_shard_plugins\"]
lock = \x7b domain = \"build\", shard = \"dev4\", minutes = 30 \x7d

[destinations.futurama]
remote = \"basicssh\"
mode = \"overwrite\"
paths = [\"/home/epic/futurama_shard_plugins\"]
lock = \x7b domain = \"build\", shard = \"futurama\", minutes = 30 \x7d

[destinations.mob]
remote = \"basicssh\"
mode = \"overwrite\"
paths = [\"/home/epic/mob_shard_plugins\"]
lock = \x7b domain = \"build\", shard = \"mob\", minutes = 30 \x7d

[destinations.stage]
remote = \"basicssh\"
mode = \"symlink-swap\"
paths = [
    \"/home/epic/stage/m17/server_config/plugins\",
    \"/home/epic/stage/m18/server_config/plugins\",
]
lock = \x7b domain = \"stage\", shard = \"*\", minutes = 30 \x7d

[destinations.volt]
remote = \"basicssh\"
mode = \"symlink-swap\"
paths = [
    \"/home/epic/volt/m17/server_config/plugins\",
    \"/home/epic/volt/m18/server_config/plugins\",
]
lock = \x7b domain = \"volt\", shard = \"*\", minutes = 30 \x7d

[destinations.m119]
remote = \"adminssh\"
mode = \"symlink-swap\"
paths = [\"/home/epic/project_epic/m119/plugins\"]
lock = \x7b domain = \"build\", shard = \"m119\", minutes = 30 \x7d

[destinations.build]
remote = \"adminssh\"
mode = \"symlink-swap\"
paths = [\"/home/epic/project_epic/server_config/plugins\"]
lock = \x7b domain = \"build\", shard = \"*\", check_only = true \x7d

[destinations.play]
remote = \"adminssh\"
mode = \"symlink-swap\"
paths = [
    \"/home/epic/play/m17/server_config/plugins\",
    \"/home/epic/play/m18/server_config/plugins\",
]
lock = \x7b domain = \"play\", shard = \"*\", check_only = true \x7d
"

def standard : Except Error Plan := parse .standard standardText

end Rollout.Plan
